/-
CommercePlayground.Checkout.FencingTheorems — a superseded generation acts no
more.

`Current db g` says that some attempt has the generation `g`. A transaction
that carries a generation commits only while it is current
(`run_current`), with one exception: `reschedule_compensation_task` checks
the worker's claim and no fence. It is covered by `FenceInv`: an open task
and an open reconciliation belong to a current generation (a reclaim moves
the reconciliation and quarantines the tasks), and a claimed row belongs to
the generation its claim was taken under. Tokens are fresh, so a generation
that a reclaim replaced never becomes current again.
-/
import CommercePlayground.Checkout.Machine
import CommercePlayground.Checkout.StoreTheorems
import CommercePlayground.Inventory.StoreTheorems
import CommercePlayground.Payment.StoreTheorems

namespace CommercePlayground.Checkout

open Lib

/-! ## Fenced transactions -/

/-- The generation a task belongs to. -/
def taskGeneration (t : CompensationTask) : Generation :=
  ⟨t.tenantId, t.checkoutRequestId, t.checkoutLeaseToken⟩

/-- The generation a reconciliation belongs to. -/
def reconciliationGeneration (r : Reconciliation) : Generation :=
  ⟨r.tenantId, r.requestId, r.checkoutLeaseToken⟩

theorem current_of_affected {db : Db} {g : Generation} {sel : CheckoutAttempt → Bool}
    (h : affected sel db.checkout.attempts = 1)
    (hsel : ∀ a, sel a = true → isGeneration g a = true) : Current db g := by
  obtain ⟨a, ha, hp⟩ := exists_of_affected_ne_zero (by rw [h]; decide)
  exact ⟨a, ha, hsel a hp⟩

theorem linkOrder_current {db db' : Db} {g : Generation} {id : OrderId} {m : String}
    (h : linkOrder g id m db = .ok db') : Current db g := by
  unfold linkOrder at h
  simp only at h
  split at h
  · rename_i hone
    refine current_of_affected hone fun a hsel => ?_
    simp only [isLinkable, Bool.and_eq_true] at hsel
    exact hsel.1.1
  · cases h

theorem createPendingOrder_current {db db' : Db} {input : CheckoutInput}
    {quote : QuoteResponse} {lease : CheckoutLease} {order : PendingOrder}
    (h : createPendingOrder input quote lease db = .ok (order, db')) :
    Current db (orderGeneration input lease) := by
  obtain ⟨_, -, h⟩ := bind_ok h
  obtain ⟨_, -, h⟩ := bind_ok h
  split at h
  · obtain ⟨_, -, h⟩ := bind_ok h
    obtain ⟨db₁, hlink, -⟩ := bind_ok h
    exact linkOrder_current hlink
  · obtain ⟨totals, -, h⟩ := bind_ok h
    obtain ⟨⟨⟩, -, h⟩ := bind_ok h
    obtain ⟨lines, -, h⟩ := bind_ok h
    obtain ⟨_, -, h⟩ := bind_ok h
    obtain ⟨_, -, h⟩ := bind_ok h
    obtain ⟨db₃, hlink, -⟩ := bind_ok h
    obtain ⟨a, ha, hg⟩ := linkOrder_current hlink
    -- neither the cart nor the order insert touches the attempts
    have hsame : (ensureCart input (chosenCart input db) (bumpUuid db)).checkout.attempts =
        db.checkout.attempts := by
      unfold ensureCart
      split <;> rfl
    have ha' : a ∈ (ensureCart input (chosenCart input db)
        (bumpUuid db)).checkout.attempts := ha
    rw [hsame] at ha'
    exact ⟨a, ha', hg⟩

theorem refreshCheckoutFence_current {db db' : Db} {fence : CheckoutFence} {u : Unit}
    (h : refreshCheckoutFence fence db = .ok (u, db')) : Current db fence.generation := by
  cases fence with
  | attempt lease =>
    obtain ⟨_, hone, -⟩ := bind_ok h
    have hone' := require_ok hone
    simp only [decide_eq_true_eq] at hone'
    exact current_of_affected hone' fun a hsel => (isLiveLease_generation hsel).1
  | paymentReconciliation t r parent worker =>
    obtain ⟨_, hlock, -⟩ := bind_ok h
    exact lockCheckoutFence_generation hlock
  | compensation t r token id claim =>
    obtain ⟨_, hlock, -⟩ := bind_ok h
    exact lockCheckoutFence_generation hlock

theorem assertCheckoutFence_current {db db' : Db} {fence : CheckoutFence} {u : Unit}
    (h : assertCheckoutFence fence db = .ok (u, db')) : Current db fence.generation := by
  cases fence with
  | attempt lease =>
    obtain ⟨_, hone, -⟩ := bind_ok h
    exact current_of_lease (require_ok hone)
  | paymentReconciliation t r parent worker =>
    obtain ⟨_, hone, -⟩ := bind_ok h
    have hone' := require_ok hone
    simp only [Bool.and_eq_true] at hone'
    exact current_of_any hone'.2
  | compensation t r token id claim =>
    obtain ⟨_, hone, -⟩ := bind_ok h
    have hone' := require_ok hone
    simp only [Bool.and_eq_true] at hone'
    exact current_of_any hone'.2

theorem liveLease_current {db : Db} {lease : CheckoutLease} {e : ApiError} {u : Unit}
    (h : require (decide (affected (isLiveLease db.now ⟨lease.tenantId, lease.requestId,
      lease.token⟩) db.checkout.attempts = 1)) e = .ok u) :
    Current db (CheckoutFence.attempt lease).generation := by
  have hone := require_ok h
  simp only [decide_eq_true_eq] at hone
  exact current_of_affected hone fun a hsel => (isLiveLease_generation hsel).1

theorem lockRegistration_current {db : Db} {lease : CheckoutLease} {b : Bool} {u : Unit}
    (h : lockRegistration lease b db = .ok u) :
    Current db (CheckoutFence.attempt lease).generation := by
  obtain ⟨a, ha, hg, -⟩ := lockRegistration_started h
  exact ⟨a, ha, hg⟩

/-- A transaction that carries a generation commits only while the generation
is current; a rescheduled task is the exception. -/
theorem Tx.run_current {tx : Tx} {db db' : Db} {r : tx.Result} {g : Generation}
    (h : tx.run db = .ok (r, db')) (hg : tx.generation = some g)
    (hne : ∀ task, tx ≠ .rescheduleCompensationTask task) : Current db g := by
  cases tx with
  | assertCheckoutFence => cases hg; exact assertCheckoutFence_current h
  | refreshCheckoutFence => cases hg; exact refreshCheckoutFence_current h
  | createPendingOrder => cases hg; exact createPendingOrder_current h
  | recordCheckoutResponse =>
    cases hg
    obtain ⟨_, hone, -⟩ := bind_ok h
    exact liveLease_current hone
  | recordCheckoutFailure =>
    cases hg
    obtain ⟨_, hone, -⟩ := bind_ok h
    exact liveLease_current hone
  | registerPendingPaymentReconciliation =>
    cases hg
    obtain ⟨_, -, h⟩ := bind_ok h
    obtain ⟨_, hlock, -⟩ := bind_ok h
    exact lockRegistration_current hlock
  | compensationFence =>
    cases hg
    obtain ⟨_, hone, -⟩ := bind_ok h
    have hone' := require_ok hone
    simp only [Bool.and_eq_true] at hone'
    exact current_of_any hone'.2
  | rescheduleCompensationTask task => exact absurd rfl (hne task)
  | claimCheckoutAttempt | loadPendingOrder | finalizationCommitted
  | wakePaymentReconciliation | claimPaymentReconciliation
  | reclaimExhaustedPaymentReconciliation | lookupAuthorizationPaymentId
  | paidReconciliationPayload | claimCompensationTask
  | deadLetterExpiredCompensationTask => cases hg
  | cancelOrderFenced | cancelOrderIfCompensated | finalizeOrder
  | recordPaymentReconciliationObservation | attachPaymentToReconciliation
  | reschedulePaymentReconciliation | completePaymentReconciliation
  | failPaymentReconciliation | enqueueInventoryCompensationTasks
  | enqueuePaymentCompensationTask | activateCompensationIntent
  | resolveCompensationIntent | beginCompensationOperation
  | completeCompensationOperation | finishCompensationTask =>
    -- the first statement is the lock of the fence
    cases hg
    obtain ⟨_, hlock, -⟩ := bind_ok h
    exact lockCheckoutFence_generation hlock

/-! ## Requests to inventory -/

theorem lockCurrentCheckoutFence_current {db : Db} {t : TenantId} {r : RequestId}
    {token : Nat} {u : Unit}
    (h : Inventory.lockCurrentCheckoutFence db t r token = .ok u) :
    Current db ⟨t, r, token⟩ := by
  unfold Inventory.lockCurrentCheckoutFence at h
  split at h
  · rename_i hany
    obtain ⟨a, ha, hp⟩ := List.any_eq_true.mp hany
    simp only [Inventory.isCurrentFence, Bool.and_eq_true] at hp
    exact ⟨a, ha, hp.1⟩
  · cases h

theorem validateFenceFields_generation {t : TenantId} {r : Option RequestId}
    {token : Option Nat} {rid : RequestId} {tok : Nat} {g : Generation}
    (h : Inventory.validateFenceFields r token = .ok (rid, tok))
    (hg : requestGeneration t r token = some g) : g = ⟨t, rid, tok⟩ := by
  cases r with
  | none => cases hg
  | some r =>
    cases token with
    | none => cases hg
    | some token =>
      obtain ⟨_, -, heq⟩ := map_ok h
      cases heq
      cases hg
      rfl

theorem reserve_current {q : Inventory.ReserveQuery} {db db' : Db} {g : Generation}
    {out : Option Inventory.ReserveOutcome} (h : Inventory.reserve q db = .ok (out, db'))
    (hg : requestGeneration q.tenantId q.checkoutRequestId q.checkoutLeaseToken = some g) :
    Current db g := by
  obtain ⟨⟨rid, tok⟩, hv, h⟩ := bind_ok h
  obtain ⟨_, -, hv⟩ := bind_ok hv
  rw [validateFenceFields_generation hv hg]
  simp only [Inventory.reserveTx] at h
  split at h
  · cases h
  · obtain ⟨_, hlock, -⟩ := bind_ok h
    exact lockCurrentCheckoutFence_current hlock

theorem release_current {q : Inventory.ReleaseBody} {db db' : Db} {g : Generation}
    {out : Option Inventory.ReleaseOutcome} (h : Inventory.release q db = .ok (out, db'))
    (hg : requestGeneration q.tenantId q.checkoutRequestId q.checkoutLeaseToken = some g) :
    Current db g := by
  obtain ⟨⟨rid, tok⟩, hv, h⟩ := bind_ok h
  obtain ⟨_, -, hv⟩ := bind_ok hv
  rw [validateFenceFields_generation hv hg]
  obtain ⟨_, hlock, -⟩ := bind_ok h
  exact lockCurrentCheckoutFence_current hlock

theorem consume_current {q : Inventory.ConsumeBody} {db db' : Db} {g : Generation}
    {out : Inventory.ConsumeOutcome} (h : Inventory.consume q db = .ok (out, db'))
    (hg : requestGeneration q.tenantId q.checkoutRequestId q.checkoutLeaseToken = some g) :
    Current db g := by
  obtain ⟨⟨rid, tok⟩, hv, h⟩ := bind_ok h
  have hv' : Inventory.validateFenceFields q.checkoutRequestId q.checkoutLeaseToken =
      .ok (rid, tok) := by
    unfold Inventory.validateConsume at hv
    split at hv
    · cases hv
    · obtain ⟨fence, hf, hv⟩ := bind_ok hv
      obtain ⟨_, -, hv⟩ := bind_ok hv
      cases hv
      exact hf
  rw [validateFenceFields_generation hv' hg]
  obtain ⟨_, hlock, -⟩ := bind_ok h
  exact lockCurrentCheckoutFence_current hlock

/-! ## What a move keeps -/

/-- An attempt move keeps the attempt's key and its generation. -/
theorem AttemptMove.same {tx : Tx} {db : Db} {a a' : CheckoutAttempt}
    (h : AttemptMove tx db a a') :
    a'.tenantId = a.tenantId ∧ a'.requestId = a.requestId ∧ a'.leaseToken = a.leaseToken := by
  cases h <;> exact ⟨rfl, rfl, rfl⟩

/-- What a task move does not change. -/
structure SameTask (t t' : CompensationTask) : Prop where
  id : t'.id = t.id
  tenantId : t'.tenantId = t.tenantId
  orderId : t'.orderId = t.orderId
  taskKey : t'.taskKey = t.taskKey
  kind : t'.kind = t.kind

theorem SameTask.refl (t : CompensationTask) : SameTask t t := ⟨rfl, rfl, rfl, rfl, rfl⟩

theorem TaskMove.same {tx : Tx} {db : Db} {t t' : CompensationTask}
    (h : TaskMove tx db t t') : SameTask t t' := by
  cases h with
  | requeue howned htenant hkey hpayment =>
    unfold requeuedTask
    split <;> exact ⟨rfl, rfl, rfl, rfl, rfl⟩
  | extend | activate | begin | complete | resolve | finish | bury | reschedule =>
    exact ⟨rfl, rfl, rfl, rfl, rfl⟩

/-- A closed task stays closed. -/
theorem TaskMove.isOpen {tx : Tx} {db : Db} {t t' : CompensationTask}
    (h : TaskMove tx db t t') (hopen : isOpenTask t' = true) : isOpenTask t = true := by
  cases h with
  | extend hs => simp [isOpenTask, hs]
  | requeue howned htenant hkey hpayment =>
    unfold requeuedTask at hopen
    split at hopen <;> exact hopen
  | activate hs => simp [isOpenTask, hs]
  | begin => exact hopen
  | complete => exact hopen
  | resolve => simp [isOpenTask, closedTask] at hopen
  | finish => simp [isOpenTask, closedTask] at hopen
  | bury hs => simp [isOpenTask, hs]
  | reschedule htx hs => simp [isOpenTask, hs]

/-- A move keeps the generation of a task, or the task is queued and passes to
an owned one. -/
theorem TaskMove.generation {tx : Tx} {db : Db} {t t' : CompensationTask}
    (h : TaskMove tx db t t') :
    taskGeneration t' = taskGeneration t ∨
      (t'.status = .queued ∧ Owned db (taskGeneration t')) := by
  cases h with
  | requeue howned htenant hkey hpayment =>
    unfold requeuedTask
    split
    · rename_i hq
      refine .inr ⟨hq, ?_⟩
      unfold taskGeneration
      rw [htenant]
      exact howned
    · exact .inl rfl
  | extend | activate | begin | complete | resolve | finish | bury | reschedule =>
    exact .inl rfl

/-- Only a claim puts a task in processing. -/
theorem TaskMove.processing {tx : Tx} {db : Db} {t t' : CompensationTask}
    (h : TaskMove tx db t t') (hp : t'.status = .processing) :
    t.status = .processing ∧ t'.claimToken = t.claimToken := by
  cases h with
  | extend hs => exact ⟨hs, rfl⟩
  | requeue howned htenant hkey hpayment =>
    unfold requeuedTask at hp ⊢
    split at hp
    · rename_i hq
      rw [hq] at hp
      cases hp
    · rename_i hq
      rw [if_neg hq]
      exact ⟨hp, rfl⟩
  | activate => cases hp
  | begin => exact ⟨hp, rfl⟩
  | complete => exact ⟨hp, rfl⟩
  | resolve => cases hp
  | finish => cases hp
  | bury => cases hp
  | reschedule => cases hp

/-- A reconciliation that is still open after a move was open before, and is
of the same generation or of a current one. -/
theorem ReconciliationMove.generation {tx : Tx} {db : Db} {r r' : Reconciliation}
    (h : ReconciliationMove tx db r r') (hopen : r'.status ≠ .completed) :
    r.status ≠ .completed ∧ (reconciliationGeneration r' = reconciliationGeneration r ∨
      Current db (reconciliationGeneration r')) := by
  cases h with
  | register htx hsel horder htenant hparent hpayment =>
    rename_i order lease paymentId methodType allowExpired
    have hr : r.status ≠ .completed := by
      intro hc
      apply hopen
      simp [reregistered, hc]
    refine ⟨hr, .inr ?_⟩
    obtain ⟨a, ha, hg, -⟩ := hparent
    simp only [isReconciliation, decide_eq_true_eq] at hsel
    refine ⟨a, ha, ?_⟩
    simpa [reconciliationGeneration, reregistered, hr, hsel.1, hsel.2,
      CheckoutFence.generation, htenant] using hg
  | extend hs => exact ⟨by rw [hs]; decide, .inl rfl⟩
  | wake hs => exact ⟨by rcases hs with hs | hs <;> rw [hs] <;> decide, .inl rfl⟩
  | exhaust hs => exact ⟨by rw [hs]; decide, .inl rfl⟩
  | attach htx hsel => exact ⟨by rw [isJob_processing hsel]; decide, .inl rfl⟩
  | reschedule hs =>
    refine ⟨by rw [hs]; decide, .inl ?_⟩
    unfold rescheduled
    split <;> rfl
  | complete hs => exact absurd rfl hopen
  | fail hs => exact ⟨by rw [hs]; decide, .inl rfl⟩

/-! ## The invariant -/

/-- The key of an attempt. -/
def attemptKey (a : CheckoutAttempt) : TenantId × RequestId := (a.tenantId, a.requestId)

/-- Every open child of an attempt is of the attempt's generation, and every
claimed task of the generation its claim was taken under. -/
structure FenceInv (db : Db) (claims : List ClaimedTask) : Prop where
  attempts : KeyUnique attemptKey db.checkout.attempts
  tokens : ∀ a ∈ db.checkout.attempts, a.leaseToken < db.nextUuid
  reconciliations : ∀ r ∈ db.checkout.reconciliations, r.status ≠ .completed →
    Current db (reconciliationGeneration r)
  tasks : ∀ t ∈ db.checkout.tasks, isOpenTask t = true → Current db (taskGeneration t)
  ids : KeyUnique (·.id) db.checkout.tasks
  idsBelow : ∀ t ∈ db.checkout.tasks, t.id < db.nextUuid
  held : ∀ t ∈ db.checkout.tasks, t.status = .processing → ∀ n, t.claimToken = some n →
    n < db.nextUuid
  claimsBelow : ∀ c ∈ claims, c.claimToken < db.nextUuid
  claimed : ∀ c ∈ claims, ∀ t ∈ db.checkout.tasks, t.status = .processing →
    t.claimToken = some c.claimToken → taskGeneration t = c.fence.generation

/-- A statement that leaves the three fenced tables alone. -/
theorem FenceInv.frame {db db' : Db} {claims : List ClaimedTask} (h : FenceInv db claims)
    (ha : db'.checkout.attempts = db.checkout.attempts)
    (hr : db'.checkout.reconciliations = db.checkout.reconciliations)
    (ht : db'.checkout.tasks = db.checkout.tasks) (hu : db.nextUuid ≤ db'.nextUuid) :
    FenceInv db' claims := by
  have hcur : ∀ g, Current db g → Current db' g := by
    rintro g ⟨a, hmem, hg⟩
    exact ⟨a, ha ▸ hmem, hg⟩
  refine ⟨ha ▸ h.attempts, ?_, ?_, ?_, ht ▸ h.ids, ?_, ?_, ?_, ?_⟩
  · rw [ha]
    exact fun a hmem => lt_of_lt_of_le (h.tokens a hmem) hu
  · rw [hr]
    exact fun r hmem hs => hcur _ (h.reconciliations r hmem hs)
  · rw [ht]
    exact fun t hmem ho => hcur _ (h.tasks t hmem ho)
  · rw [ht]
    exact fun t hmem => lt_of_lt_of_le (h.idsBelow t hmem) hu
  · rw [ht]
    exact fun t hmem hp n hn => lt_of_lt_of_le (h.held t hmem hp n hn) hu
  · exact fun c hc => lt_of_lt_of_le (h.claimsBelow c hc) hu
  · rw [ht]
    exact h.claimed

theorem FenceInv.owned {db : Db} {claims : List ClaimedTask} (h : FenceInv db claims)
    {g : Generation} (ho : Owned db g) : Current db g := by
  rcases ho with hcur | ⟨r, hr, hg, hs⟩
  · exact hcur
  · have hcur := h.reconciliations r hr (by rw [hs]; decide)
    have heq : reconciliationGeneration r = g := by
      simp only [isReconciliationOf, decide_eq_true_eq] at hg
      obtain ⟨h1, h2, h3⟩ := hg
      cases g
      simp_all [reconciliationGeneration]
    exact heq ▸ hcur

/-- With unique keys, two attempts of one request are one. -/
theorem FenceInv.attempt_eq {db : Db} {claims : List ClaimedTask} (h : FenceInv db claims)
    {a b : CheckoutAttempt} (ha : a ∈ db.checkout.attempts) (hb : b ∈ db.checkout.attempts)
    (ht : a.tenantId = b.tenantId) (hr : a.requestId = b.requestId) : a = b :=
  h.attempts.eq_of_mem ha hb (by simp [attemptKey, ht, hr])

theorem FenceInv.openAttempt {db : Db} {claims : List ClaimedTask} (h : FenceInv db claims)
    {t : TenantId} {r : RequestId} {fingerprint : CheckoutInput}
    (hnew : ∀ a ∈ db.checkout.attempts, isAttempt t r a = false) :
    FenceInv (bumpUuid (setAttempts db
      (db.checkout.attempts ++ [newAttempt db t r fingerprint]))) claims := by
  have hcur : ∀ g, Current db g → Current (bumpUuid (setAttempts db
      (db.checkout.attempts ++ [newAttempt db t r fingerprint]))) g := by
    rintro g ⟨a, hmem, hg⟩
    exact ⟨a, List.mem_append_left _ hmem, hg⟩
  refine ⟨?_, ?_, fun r hr hs => hcur _ (h.reconciliations r hr hs),
    fun t ht ho => hcur _ (h.tasks t ht ho), h.ids,
    fun t ht => Nat.lt_succ_of_lt (h.idsBelow t ht),
    fun t ht hp n hn => Nat.lt_succ_of_lt (h.held t ht hp n hn),
    fun c hc => Nat.lt_succ_of_lt (h.claimsBelow c hc), h.claimed⟩
  · refine h.attempts.append_singleton fun a ha hkey => ?_
    have := hnew a ha
    simp only [attemptKey, newAttempt, Prod.mk.injEq] at hkey
    simp [isAttempt, hkey.1, hkey.2] at this
  · intro a ha
    rcases List.mem_append.mp ha with ha | ha
    · exact Nat.lt_succ_of_lt (h.tokens a ha)
    · cases List.mem_singleton.mp ha
      exact Nat.lt_succ_self _

/-- A write that keeps the attempts' generations keeps the current ones. -/
theorem current_updateAttempts {tx : Tx} {db : Db} {sel : CheckoutAttempt → Bool}
    {f : CheckoutAttempt → CheckoutAttempt}
    (h : ∀ a ∈ db.checkout.attempts, sel a = true → AttemptMove tx db a (f a))
    {g : Generation} (hcur : Current db g) : Current (updateAttempts db sel f) g := by
  obtain ⟨a, ha, hg⟩ := hcur
  cases hsel : sel a with
  | false => exact ⟨a, mem_updateWhere_of_not ha hsel, hg⟩
  | true =>
    obtain ⟨h1, h2, h3⟩ := (h a ha hsel).same
    refine ⟨f a, mem_updateWhere_of_pos ha hsel, ?_⟩
    rw [isGeneration_iff] at hg ⊢
    rw [h1, h2, h3]
    exact hg

theorem FenceInv.attemptMoves {tx : Tx} {db : Db} {claims : List ClaimedTask}
    (h : FenceInv db claims) {sel : CheckoutAttempt → Bool}
    {f : CheckoutAttempt → CheckoutAttempt}
    (hmove : ∀ a ∈ db.checkout.attempts, sel a = true → AttemptMove tx db a (f a)) :
    FenceInv (updateAttempts db sel f) claims := by
  refine ⟨h.attempts.updateWhere fun a ha hsel => ?_, ?_,
    fun r hr hs => current_updateAttempts hmove (h.reconciliations r hr hs),
    fun t ht ho => current_updateAttempts hmove (h.tasks t ht ho), h.ids, h.idsBelow, h.held,
    h.claimsBelow, h.claimed⟩
  · obtain ⟨h1, h2, -⟩ := (hmove a ha hsel).same
    simp [attemptKey, h1, h2]
  · intro a' ha'
    obtain ⟨a, ha, rfl⟩ := mem_updateWhere.mp ha'
    cases hsel : sel a with
    | false =>
      simp only [Bool.false_eq_true, if_false]
      exact h.tokens a ha
    | true =>
      simp only [if_true]
      rw [(hmove a ha hsel).same.2.2]
      exact h.tokens a ha

/-- The reclaimed attempt is the only row the reclaim rewrites. -/
theorem FenceInv.reclaim_rows {db : Db} {claims : List ClaimedTask} (h : FenceInv db claims)
    {a : CheckoutAttempt} (ha : a ∈ db.checkout.attempts) {b : CheckoutAttempt}
    (hb : b ∈ db.checkout.attempts)
    (hsel : (isGeneration ⟨a.tenantId, a.requestId, a.leaseToken⟩ b &&
      decide (b.status = .started) && isStale db.now b) = true) : b = a := by
  simp only [Bool.and_eq_true, isGeneration_iff] at hsel
  exact h.attempt_eq hb ha hsel.1.1.1 hsel.1.1.2.1

/-- After a reclaim the other generations are as current as before, and the
fresh token is the attempt's. -/
theorem FenceInv.reclaim_current {db : Db} {claims : List ClaimedTask}
    (h : FenceInv db claims) {a : CheckoutAttempt} (ha : a ∈ db.checkout.attempts)
    (hs : a.status = .started) (hstale : isStale db.now a = true) :
    (∀ g, g ≠ ⟨a.tenantId, a.requestId, a.leaseToken⟩ → Current db g →
      Current (reclaim db ⟨a.tenantId, a.requestId, a.leaseToken⟩) g) ∧
    Current (reclaim db ⟨a.tenantId, a.requestId, a.leaseToken⟩)
      ⟨a.tenantId, a.requestId, db.nextUuid⟩ := by
  constructor
  · rintro g hg ⟨b, hb, hbg⟩
    refine ⟨b, mem_updateWhere_of_not hb ?_, hbg⟩
    rw [← Bool.not_eq_true]
    intro hsel
    cases h.reclaim_rows ha hb hsel
    rw [isGeneration_iff] at hbg
    apply hg
    cases g
    simp_all
  · refine ⟨reclaimed db.now db.nextUuid a, mem_updateWhere_of_pos ha ?_, ?_⟩
    · simp [isGeneration, hs, hstale]
    · simp [isGeneration, reclaimed]

theorem FenceInv.reclaim {db : Db} {claims : List ClaimedTask} (h : FenceInv db claims)
    {a : CheckoutAttempt} (ha : a ∈ db.checkout.attempts) (hs : a.status = .started)
    (hstale : isStale db.now a = true) :
    FenceInv (reclaim db ⟨a.tenantId, a.requestId, a.leaseToken⟩) claims := by
  obtain ⟨hkeep, hfresh⟩ := h.reclaim_current ha hs hstale
  refine ⟨h.attempts.updateWhere fun _ _ _ => rfl, ?_, ?_, ?_,
    h.ids.updateWhere fun _ _ _ => rfl, ?_, ?_,
    fun c hc => Nat.lt_succ_of_lt (h.claimsBelow c hc), ?_⟩
  · intro b' hb'
    obtain ⟨b, hb, rfl⟩ := mem_updateWhere.mp hb'
    split
    · exact Nat.lt_succ_self _
    · exact Nat.lt_succ_of_lt (h.tokens b hb)
  · -- the reconciliation follows its attempt
    intro r' hr' hopen
    obtain ⟨r, hr, rfl⟩ := mem_updateWhere.mp hr'
    split at hopen
    · rename_i hsel
      rw [if_pos hsel]
      simp only [isReconciliationOf, Bool.and_eq_true, decide_eq_true_eq] at hsel
      simpa [reconciliationGeneration, transferred, hsel.1.1, hsel.1.2.1] using hfresh
    · rename_i hsel
      rw [if_neg hsel]
      refine hkeep _ (fun heq => hsel ?_) (h.reconciliations r hr hopen)
      simp only [reconciliationGeneration, Generation.mk.injEq] at heq
      simp [isReconciliationOf, heq.1, heq.2.1, heq.2.2, hopen]
  · -- the open tasks of the old generation are quarantined
    intro t' ht' hopen
    obtain ⟨t, ht, rfl⟩ := mem_updateWhere.mp ht'
    split at hopen
    · simp [isOpenTask, superseded] at hopen
    · rename_i hsel
      rw [if_neg hsel]
      refine hkeep _ (fun heq => hsel ?_) (h.tasks t ht hopen)
      simp only [taskGeneration, Generation.mk.injEq] at heq
      simp [isTaskOf, heq.1, heq.2.1, heq.2.2, hopen]
  · intro t' ht'
    obtain ⟨t, ht, rfl⟩ := mem_updateWhere.mp ht'
    split <;> exact Nat.lt_succ_of_lt (h.idsBelow t ht)
  · intro t' ht' hp n hn
    obtain ⟨t, ht, rfl⟩ := mem_updateWhere.mp ht'
    split at hp
    · cases hp
    · rename_i hsel
      rw [if_neg hsel] at hn
      exact Nat.lt_succ_of_lt (h.held t ht hp n hn)
  · intro c hc t' ht' hp hclaim
    obtain ⟨t, ht, rfl⟩ := mem_updateWhere.mp ht'
    split at hp
    · cases hp
    · rename_i hsel
      rw [if_neg hsel] at hclaim ⊢
      exact h.claimed c hc t ht hp hclaim

theorem FenceInv.insertTask {db : Db} {claims : List ClaimedTask} (h : FenceInv db claims)
    {order : PendingOrder} {fence : CheckoutFence} {base : TaskBaseKey} {kind : TaskKind}
    (howned : Owned db (fence.generationIn order.tenantId)) :
    FenceInv (bumpUuid (setTasks db
      (db.checkout.tasks ++ [newTask db order fence base kind]))) claims := by
  refine ⟨h.attempts, fun a ha => Nat.lt_succ_of_lt (h.tokens a ha), h.reconciliations, ?_,
    h.ids.append_singleton fun t ht heq => ?_, ?_, ?_,
    fun c hc => Nat.lt_succ_of_lt (h.claimsBelow c hc), ?_⟩
  · intro t ht hopen
    rcases List.mem_append.mp ht with ht | ht
    · exact h.tasks t ht hopen
    · cases List.mem_singleton.mp ht
      exact h.owned howned
  · have := h.idsBelow t ht
    simp only [newTask] at heq
    omega
  · intro t ht
    rcases List.mem_append.mp ht with ht | ht
    · exact Nat.lt_succ_of_lt (h.idsBelow t ht)
    · cases List.mem_singleton.mp ht
      exact Nat.lt_succ_self _
  · intro t ht hp n hn
    rcases List.mem_append.mp ht with ht | ht
    · exact Nat.lt_succ_of_lt (h.held t ht hp n hn)
    · cases List.mem_singleton.mp ht
      cases hp
  · intro c hc t ht hp
    rcases List.mem_append.mp ht with ht | ht
    · exact h.claimed c hc t ht hp
    · cases List.mem_singleton.mp ht
      cases hp

theorem FenceInv.taskMoves {tx : Tx} {db : Db} {claims : List ClaimedTask}
    (h : FenceInv db claims) {sel : CompensationTask → Bool}
    {f : CompensationTask → CompensationTask}
    (hmove : ∀ t ∈ db.checkout.tasks, sel t = true → TaskMove tx db t (f t)) :
    FenceInv (updateTasks db sel f) claims := by
  refine ⟨h.attempts, h.tokens, h.reconciliations, ?_,
    h.ids.updateWhere fun t ht hsel => (hmove t ht hsel).same.id, ?_, ?_, h.claimsBelow, ?_⟩
  · intro t' ht' hopen
    obtain ⟨t, ht, rfl⟩ := mem_updateWhere.mp ht'
    cases hsel : sel t with
    | false =>
      simp only [hsel] at hopen ⊢
      exact h.tasks t ht hopen
    | true =>
      simp only [hsel, if_true] at hopen ⊢
      rcases (hmove t ht hsel).generation with heq | ⟨-, howned⟩
      · rw [heq]
        exact h.tasks t ht ((hmove t ht hsel).isOpen hopen)
      · exact h.owned howned
  · intro t' ht'
    obtain ⟨t, ht, rfl⟩ := mem_updateWhere.mp ht'
    cases hsel : sel t with
    | false =>
      simp only [Bool.false_eq_true, if_false]
      exact h.idsBelow t ht
    | true =>
      simp only [if_true]
      rw [(hmove t ht hsel).same.id]
      exact h.idsBelow t ht
  · intro t' ht' hp n hn
    obtain ⟨t, ht, rfl⟩ := mem_updateWhere.mp ht'
    cases hsel : sel t with
    | false =>
      simp only [hsel] at hp hn
      exact h.held t ht hp n hn
    | true =>
      simp only [hsel, if_true] at hp hn
      obtain ⟨hp', hc'⟩ := (hmove t ht hsel).processing hp
      exact h.held t ht hp' n (hc' ▸ hn)
  · intro c hc t' ht' hp hclaim
    obtain ⟨t, ht, rfl⟩ := mem_updateWhere.mp ht'
    cases hsel : sel t with
    | false =>
      simp only [hsel] at hp hclaim ⊢
      exact h.claimed c hc t ht hp hclaim
    | true =>
      simp only [hsel, if_true] at hp hclaim ⊢
      obtain ⟨hp', hc'⟩ := (hmove t ht hsel).processing hp
      rcases (hmove t ht hsel).generation with heq | ⟨hq, -⟩
      · rw [heq]
        exact h.claimed c hc t ht hp' (hc' ▸ hclaim)
      · rw [hq] at hp
        cases hp

theorem isClaimableTask_open {db : Db} {t : CompensationTask}
    (h : isClaimableTask db t = true) : isOpenTask t = true := by
  simp only [isClaimableTask, Bool.and_eq_true, Bool.or_eq_true, decide_eq_true_eq] at h
  rcases h.1.2 with ⟨hs | hs, -⟩ | ⟨hs, -⟩ <;> simp [isOpenTask, hs]

/-- A claim and the worker's copy of it. -/
theorem FenceInv.claimTask {db : Db} {claims : List ClaimedTask} (h : FenceInv db claims)
    {pick : Nat} {t : CompensationTask} (ht : t ∈ db.checkout.tasks) (hpick : t.id = pick) :
    FenceInv (bumpUuid (updateTasks db
      (fun t => decide (t.id = pick) && isClaimableTask db t)
      (claimedTask db.now db.nextUuid))) (claimOf db.nextUuid t :: claims) := by
  refine ⟨h.attempts, fun a ha => Nat.lt_succ_of_lt (h.tokens a ha), h.reconciliations, ?_,
    h.ids.updateWhere fun _ _ _ => rfl, ?_, ?_, ?_, ?_⟩
  · intro t₁' ht₁' hopen
    obtain ⟨t₁, ht₁, rfl⟩ := mem_updateWhere.mp ht₁'
    split at hopen
    · rename_i hsel
      rw [if_pos hsel]
      simp only [Bool.and_eq_true] at hsel
      exact h.tasks t₁ ht₁ (isClaimableTask_open hsel.2)
    · rename_i hsel
      rw [if_neg hsel]
      exact h.tasks t₁ ht₁ hopen
  · intro t₁' ht₁'
    obtain ⟨t₁, ht₁, rfl⟩ := mem_updateWhere.mp ht₁'
    split <;> exact Nat.lt_succ_of_lt (h.idsBelow t₁ ht₁)
  · intro t₁' ht₁' hp n hn
    obtain ⟨t₁, ht₁, rfl⟩ := mem_updateWhere.mp ht₁'
    split at hp
    · rename_i hsel
      rw [if_pos hsel] at hn
      cases hn
      exact Nat.lt_succ_self _
    · rename_i hsel
      rw [if_neg hsel] at hn
      exact Nat.lt_succ_of_lt (h.held t₁ ht₁ hp n hn)
  · intro c hc
    rcases List.mem_cons.mp hc with rfl | hc
    · exact Nat.lt_succ_self _
    · exact Nat.lt_succ_of_lt (h.claimsBelow c hc)
  · intro c hc t₁' ht₁' hp hclaim
    obtain ⟨t₁, ht₁, rfl⟩ := mem_updateWhere.mp ht₁'
    split at hp
    · -- the claimed row: its token is fresh, so the claim is the new one
      rename_i hsel
      rw [if_pos hsel] at hclaim ⊢
      simp only [Bool.and_eq_true, decide_eq_true_eq] at hsel
      cases h.ids.eq_of_mem ht₁ ht (hsel.1.trans hpick.symm)
      simp only [claimedTask, Option.some.injEq] at hclaim
      rcases List.mem_cons.mp hc with rfl | hc
      · rfl
      · have := h.claimsBelow c hc
        omega
    · rename_i hsel
      rw [if_neg hsel] at hclaim ⊢
      rcases List.mem_cons.mp hc with rfl | hc
      · -- an older row cannot carry the fresh token
        exact absurd (h.held t₁ ht₁ hp _ hclaim) (Nat.lt_irrefl _)
      · exact h.claimed c hc t₁ ht₁ hp hclaim

theorem FenceInv.insertReconciliation {db : Db} {claims : List ClaimedTask}
    (h : FenceInv db claims) {order : PendingOrder} {lease : CheckoutLease}
    {paymentId : Option PaymentId} {methodType : PaymentMethodType}
    (htenant : lease.tenantId = order.tenantId)
    (hparent : ∃ a ∈ db.checkout.attempts,
      isGeneration (CheckoutFence.attempt lease).generation a = true ∧ a.status = .started) :
    FenceInv (setReconciliations db (db.checkout.reconciliations ++
      [newReconciliation db order lease paymentId methodType])) claims := by
  refine ⟨h.attempts, h.tokens, ?_, h.tasks, h.ids, h.idsBelow, h.held, h.claimsBelow,
    h.claimed⟩
  intro r hr hopen
  rcases List.mem_append.mp hr with hr | hr
  · exact h.reconciliations r hr hopen
  · cases List.mem_singleton.mp hr
    obtain ⟨a, ha, hg, -⟩ := hparent
    refine ⟨a, ha, ?_⟩
    simpa [reconciliationGeneration, newReconciliation, CheckoutFence.generation, htenant]
      using hg

/-- Rewrites of reconciliations that keep an open row's generation, or move it
to a current one. -/
theorem FenceInv.reconciliationRows {db : Db} {claims : List ClaimedTask}
    (h : FenceInv db claims) {sel : Reconciliation → Bool}
    {f : Reconciliation → Reconciliation}
    (hmove : ∀ r ∈ db.checkout.reconciliations, sel r = true → (f r).status ≠ .completed →
      r.status ≠ .completed ∧ (reconciliationGeneration (f r) = reconciliationGeneration r ∨
        Current db (reconciliationGeneration (f r)))) :
    FenceInv (updateReconciliations db sel f) claims := by
  refine ⟨h.attempts, h.tokens, ?_, h.tasks, h.ids, h.idsBelow, h.held, h.claimsBelow,
    h.claimed⟩
  intro r' hr' hopen
  obtain ⟨r, hr, rfl⟩ := mem_updateWhere.mp hr'
  cases hsel : sel r with
  | false =>
    simp only [hsel] at hopen ⊢
    exact h.reconciliations r hr hopen
  | true =>
    simp only [hsel, if_true] at hopen ⊢
    obtain ⟨hold, heq | hcur⟩ := hmove r hr hsel hopen
    · rw [heq]
      exact h.reconciliations r hr hold
    · exact hcur

theorem isClaimable_open {db : Db} {r : Reconciliation} (h : isClaimable db r = true) :
    r.status ≠ .completed := by
  simp only [isClaimable, Bool.and_eq_true, Bool.or_eq_true, decide_eq_true_eq] at h
  rcases h.1.2 with ⟨hs, -⟩ | ⟨hs, -⟩ <;> rw [hs] <;> decide

theorem FenceInv.bump {db : Db} {claims : List ClaimedTask} (h : FenceInv db claims) :
    FenceInv (bumpUuid db) claims :=
  h.frame rfl rfl rfl (Nat.le_succ _)

theorem redeemPromotion_frame {db db' : Db} {order : PendingOrder}
    (h : redeemPromotion order db = .ok db') :
    ∃ t, db' = setPromotions db t := by
  unfold redeemPromotion at h
  split at h
  · cases h
    exact ⟨db.checkout.promotions, rfl⟩
  · simp only at h
    split at h
    · cases h
      exact ⟨_, rfl⟩
    · cases h

/-- Every write of checkout keeps the invariant. -/
theorem FenceInv.change {tx : Tx} {db db' : Db} {claims : List ClaimedTask}
    (h : FenceInv db claims) (hc : Change tx db db') : FenceInv db' claims := by
  cases hc with
  | openAttempt hnew => exact h.openAttempt hnew
  | reclaim ha hs hstale => exact h.reclaim ha hs hstale
  | attempts hmove => exact h.attemptMoves hmove
  | uuid => exact h.bump
  | cart =>
    unfold ensureCart
    split
    · exact h
    · exact h.frame rfl rfl rfl le_rfl
  | order => exact h.frame rfl rfl rfl (Nat.le_succ _)
  | cancel => exact h.frame rfl rfl rfl le_rfl
  | pay =>
    unfold insertPaidEvent
    split <;> exact h.frame rfl rfl rfl le_rfl
  | checkOut | exposure | analytics => exact h.frame rfl rfl rfl le_rfl
  | redeem htx hr =>
    obtain ⟨t, rfl⟩ := redeemPromotion_frame hr
    exact h.frame rfl rfl rfl le_rfl
  | task hkey hkind howned => exact h.insertTask howned
  | tasks hmove => exact h.taskMoves hmove
  | claimTask ht hpick =>
    have := h.claimTask ht hpick
    exact ⟨this.attempts, this.tokens, this.reconciliations, this.tasks, this.ids,
      this.idsBelow, this.held, fun c hc => this.claimsBelow c (List.mem_cons_of_mem _ hc),
      fun c hc => this.claimed c (List.mem_cons_of_mem _ hc)⟩
  | reconciliation htx htenant hnew hparent => exact h.insertReconciliation htenant hparent
  | reconciliations hmove =>
    exact h.reconciliationRows fun r hr hsel hopen => (hmove r hr hsel).generation hopen
  | claimReconciliation hclaim =>
    exact (h.reconciliationRows (f := claimedReconciliation db.now db.nextUuid)
      fun r hr hsel _ => ⟨isClaimable_open (hclaim r hr hsel), .inl rfl⟩).bump

/-- Payment only wakes reconciliations, which keeps them in their generation. -/
theorem FenceInv.paymentEffect {Q : PaymentStore.Scope} {db db' : Db} {claims : List ClaimedTask}
    (h : FenceInv db claims) (he : PaymentStore.Effect Q db db') : FenceInv db' claims := by
  cases he with
  | refl => exact h
  | act hq hvalid hnew hact => cases hact <;> exact h.frame rfl rfl rfl le_rfl
  | refuse => exact h.frame rfl rfl rfl le_rfl
  | quarantine => exact h.frame rfl rfl rfl le_rfl
  | @resolve p requestId d sel hmem hpending hop hd hm hsel =>
    have hopen : ∀ r, sel r = true → r.status ≠ .completed := by
      intro r hr
      rcases (hsel r hr).2.2.2.1 with hq | hq <;> rw [hq] <;> decide
    have hmove := h.reconciliationRows (f := PaymentStore.requeued db.now p.id)
      fun r _ hr _ => ⟨hopen r hr, .inl rfl⟩
    exact hmove.frame rfl rfl rfl le_rfl

/-! ## Steps -/

/-- A consume request that names the reservation, for a current generation. -/
def ConsumesNow (db : Db) (a : Inventory.Action) (key : TenantId × ReservationId) : Prop :=
  ∃ q, a = .consume q ∧ Inventory.consumes q key ∧
    ∀ g, requestGeneration q.tenantId q.checkoutRequestId q.checkoutLeaseToken = some g →
      Current db g

/-- What the database of a committed step is. -/
inductive Committed (db : Db) : Action → Db → Prop where
  | checkout {tx : Tx} {r : tx.Result} {db' : Db} (h : tx.run db = .ok (r, db')) :
      Committed db (.checkout tx) db'
  | inventory {K : TenantId × ReservationId → Prop} {a : Inventory.Action} {db' : Db}
      (hK : ∀ key, K key → ConsumesNow db a key) (h : Inventory.Effects K db db') :
      Committed db (.inventory a) db'
  | payment {a : PaymentStore.Action} {db' : Db}
      (h : PaymentStore.Effects (PaymentStore.scope db a) db db') :
      Committed db (.payment a) db'
  | decided {d : ProviderDecision} {db' : Db}
      (hnow : d.verifiedAt ≤ db.now) (h : PaymentStore.insertDecision db d = .ok db') :
      Committed db (.payment (.decide d)) db'
  | elapse {time : Nat} : Committed db (.elapse time) { db with now := db.now + time }

/-- The primary keys the other services' theorems rest on. -/
structure Keyed (db : Db) : Prop where
  payments : KeyUnique (·.id) db.payment.payments
  reservations : KeyUnique Inventory.reservationKey db.inventory.reservations

theorem committedDb_some {ε α : Type} {x : Except ε (α × Db)} {db' : Db}
    (h : committedDb x = some db') : ∃ r, x = .ok (r, db') := by
  cases x with
  | error e => cases h
  | ok r =>
    cases h
    exact ⟨r.1, rfl⟩

theorem committed_of_payment {db db' : Db} {a : PaymentStore.Action} (hk : Keyed db)
    (h : Action.commit db (.payment a) = some db') : Committed db (.payment a) db' := by
  cases a with
  | request q =>
    cases h
    exact .payment (PaymentStore.serve_effect q db).toEffects
  | getPayment t id =>
    cases h
    exact .payment (PaymentStore.serveGetPayment_effect t id db).toEffects
  | reconcile n keys =>
    cases h
    cases hex : PaymentStore.reconcilePendingPayments n keys db with
    | ok r =>
      exact .payment (PaymentStore.reconcilePendingPayments_effects hex hk.payments
        fun key hkey => by simpa [PaymentStore.scope] using hkey)
    | error e => exact .payment .refl
  | decide d =>
    simp only [Action.commit, PaymentStore.step] at h
    split at h
    · rename_i hnow
      cases hi : PaymentStore.insertDecision db d with
      | ok db₁ =>
        rw [hi] at h
        cases h
        exact .decided hnow hi
      | error e =>
        rw [hi] at h
        cases h
        exact .payment .refl
    · cases h
  | environment => cases h

theorem committed_of_commit {db db' : Db} {a : Action} (hk : Keyed db)
    (h : a.commit db = some db') : Committed db a db' := by
  cases a with
  | checkout tx =>
    obtain ⟨r, hr⟩ := committedDb_some h
    exact .checkout hr
  | inventory a =>
    cases a with
    | reserve q =>
      obtain ⟨r, hr⟩ := committedDb_some h
      exact .inventory (K := fun _ => False) nofun (Inventory.reserve_effect hr).toEffects
    | release q =>
      obtain ⟨r, hr⟩ := committedDb_some h
      exact .inventory (K := fun _ => False) nofun (Inventory.release_effects hr)
    | consume q =>
      obtain ⟨r, hr⟩ := committedDb_some h
      exact .inventory (fun key hkey => ⟨q, rfl, hkey, fun g hg => consume_current hr hg⟩)
        (Inventory.consume_effects hr)
    | reap visible =>
      obtain ⟨r, hr⟩ := committedDb_some h
      exact .inventory (K := fun _ => False) nofun
        (Inventory.reapExpiredReservations_effects hk.reservations hr)
    | environment => cases h
  | payment a => exact committed_of_payment hk h
  | elapse time =>
    cases h
    exact .elapse

/-- Checkout writes neither payments nor reservations. -/
theorem Change.frame {tx : Tx} {db db' : Db} (h : Change tx db db') :
    db'.payment = db.payment ∧ db'.inventory = db.inventory ∧ db'.now = db.now := by
  cases h with
  | cart => unfold ensureCart; split <;> exact ⟨rfl, rfl, rfl⟩
  | pay => unfold insertPaidEvent; split <;> exact ⟨rfl, rfl, rfl⟩
  | redeem htx hr =>
    obtain ⟨t, rfl⟩ := redeemPromotion_frame hr
    exact ⟨rfl, rfl, rfl⟩
  | openAttempt | reclaim | attempts | uuid | order | cancel | checkOut | exposure | analytics | task | tasks
  | claimTask | reconciliation | reconciliations | claimReconciliation =>
    exact ⟨rfl, rfl, rfl⟩

theorem Changes.frame {tx : Tx} {db db' : Db} (h : Changes tx db db') :
    db'.payment = db.payment ∧ db'.inventory = db.inventory ∧ db'.now = db.now := by
  refine h.invariant (I := fun x => x.payment = db.payment ∧ x.inventory = db.inventory ∧
    x.now = db.now) ⟨rfl, rfl, rfl⟩ ?_
  rintro a b ⟨h1, h2, h3⟩ hc
  obtain ⟨c1, c2, c3⟩ := hc.frame
  exact ⟨c1.trans h1, c2.trans h2, c3.trans h3⟩

theorem Keyed.committed {db db' : Db} {a : Action} (hk : Keyed db) (h : Committed db a db') :
    Keyed db' := by
  cases h with
  | checkout hr =>
    obtain ⟨hp, hi, -⟩ := (Tx.run_changes hr).frame
    exact ⟨hp ▸ hk.payments, hi ▸ hk.reservations⟩
  | inventory hK heff =>
    obtain ⟨-, hp, -⟩ := heff.frame
    exact ⟨hp ▸ hk.payments,
      heff.invariant hk.reservations fun a b hu he => he.keyUnique hu⟩
  | payment heff =>
    refine ⟨heff.invariant hk.payments fun a b hu he => he.keyUnique hu, ?_⟩
    have hsame := heff.invariant (I := fun x => x.inventory = db.inventory) rfl
      fun a b ha he => he.inventory.trans ha
    exact hsame ▸ hk.reservations
  | decided hnow hi =>
    obtain ⟨rfl, -, -⟩ := PaymentStore.insertDecision_ok hi
    exact ⟨hk.payments, hk.reservations⟩
  | elapse => exact ⟨hk.payments, hk.reservations⟩

/-- A committed transaction keeps the invariant, the claim it hands out
included. -/
theorem FenceInv.run {tx : Tx} {db db' : Db} {claims : List ClaimedTask} {r : tx.Result}
    (h : FenceInv db claims) (hr : tx.run db = .ok (r, db')) :
    FenceInv db' (tx.granted r ++ claims) := by
  have hsame : FenceInv db' claims :=
    (Tx.run_changes hr).invariant (I := fun x => FenceInv x claims) h
      fun a b ha hc => ha.change hc
  cases tx with
  | claimCompensationTask pick =>
    simp only [Tx.run, claimCompensationTask] at hr
    split at hr
    · cases hr
      exact h
    · rename_i t hfind
      cases hr
      obtain ⟨hmem, hsel⟩ := find?_some_spec hfind
      simp only [Bool.and_eq_true, decide_eq_true_eq] at hsel
      exact h.claimTask hmem hsel.1
  | _ => exact hsame

theorem FenceInv.committed {db db' : Db} {claims : List ClaimedTask} {a : Action}
    (h : FenceInv db claims) (hc : Committed db a db') :
    FenceInv db' (a.granted db ++ claims) := by
  cases hc with
  | checkout hr =>
    simp only [Action.granted, hr]
    exact h.run hr
  | inventory hK heff =>
    obtain ⟨hck, -, -, hu⟩ := heff.frame
    exact h.frame (by rw [hck]) (by rw [hck]) (by rw [hck]) hu.ge
  | payment heff =>
    exact heff.invariant (I := fun x => FenceInv x claims) h fun a b ha he => ha.paymentEffect he
  | decided hnow hi =>
    obtain ⟨rfl, -, -⟩ := PaymentStore.insertDecision_ok hi
    exact h.frame rfl rfl rfl le_rfl
  | elapse => exact h.frame rfl rfl rfl le_rfl

/-- A failed step hands out no claim. -/
theorem granted_of_failed {db : Db} {a : Action} (h : a.commit db = none) :
    a.granted db = [] := by
  cases a with
  | checkout tx =>
    simp only [Action.commit] at h
    simp only [Action.granted]
    cases hr : tx.run db with
    | ok r =>
      rw [hr] at h
      cases h
    | error e => rfl
  | inventory | payment | elapse => rfl

/-- The invariant of the machine. -/
structure MachineInv (s : State) : Prop where
  fences : FenceInv s.db s.claims
  keys : Keyed s.db

theorem MachineInv.initial {s : State} (h : Initial s) : MachineInv s := by
  obtain ⟨ha, ht, hr, hp, hi, hc⟩ := h
  refine ⟨⟨?_, ?_, ?_, ?_, ?_, ?_, ?_, ?_, ?_⟩, ?_, ?_⟩
  · rw [ha]
    exact KeyUnique.nil _
  · simp [ha]
  · simp [hr]
  · simp [ht]
  · rw [ht]
    exact KeyUnique.nil _
  · simp [ht]
  · simp [ht]
  · simp [hc]
  · simp [hc]
  · rw [hp]
    exact KeyUnique.nil _
  · rw [hi]
    exact KeyUnique.nil _

/-- A step commits, or leaves everything as it was. -/
theorem step_some {s u : State} {a : Action} (hk : Keyed s.db) (h : step s a = some u) :
    (Committed s.db a u.db ∧ u.claims = a.granted s.db ++ s.claims) ∨
      (a.commit s.db = none ∧ u = s) := by
  unfold step at h
  split at h
  · cases h
    cases hcommit : a.commit s.db with
    | none => exact .inr ⟨rfl, by simp [granted_of_failed hcommit]⟩
    | some db' => exact .inl ⟨committed_of_commit hk hcommit, rfl⟩
  · cases h

theorem MachineInv.step {s u : State} {a : Action} (h : MachineInv s)
    (hs : Checkout.step s a = some u) : MachineInv u := by
  rcases step_some h.keys hs with ⟨hc, hclaims⟩ | ⟨-, rfl⟩
  · refine ⟨?_, h.keys.committed hc⟩
    rw [hclaims]
    exact h.fences.committed hc
  · exact h

/-! ## Tokens are never reused -/

/-- A generation that is current later was current before, or is new. -/
structure Fresher (db db' : Db) : Prop where
  uuid : db.nextUuid ≤ db'.nextUuid
  current : ∀ g, Current db' g → Current db g ∨ db.nextUuid ≤ g.token

theorem Fresher.refl (db : Db) : Fresher db db := ⟨le_rfl, fun _ h => .inl h⟩

theorem Fresher.trans {a b c : Db} (h₁ : Fresher a b) (h₂ : Fresher b c) : Fresher a c := by
  refine ⟨h₁.uuid.trans h₂.uuid, fun g hg => ?_⟩
  rcases h₂.current g hg with hb | hge
  · exact h₁.current g hb
  · exact .inr (h₁.uuid.trans hge)

theorem Fresher.of_attempts {db db' : Db} (ha : db'.checkout.attempts = db.checkout.attempts)
    (hu : db.nextUuid ≤ db'.nextUuid) : Fresher db db' :=
  ⟨hu, fun _ ⟨a, hmem, hg⟩ => .inl ⟨a, ha ▸ hmem, hg⟩⟩

theorem Change.fresher {tx : Tx} {db db' : Db} (h : Change tx db db') : Fresher db db' := by
  cases h with
  | openAttempt hnew =>
    refine ⟨Nat.le_succ _, ?_⟩
    rintro g ⟨a, ha, hg⟩
    rcases List.mem_append.mp ha with ha | ha
    · exact .inl ⟨a, ha, hg⟩
    · cases List.mem_singleton.mp ha
      exact .inr (isGeneration_iff.mp hg).2.2.le
  | reclaim ha hs hstale =>
    refine ⟨Nat.le_succ _, ?_⟩
    rintro g ⟨b', hb', hg⟩
    obtain ⟨b, hb, rfl⟩ := mem_updateWhere.mp hb'
    split at hg
    · exact .inr (isGeneration_iff.mp hg).2.2.le
    · exact .inl ⟨b, hb, hg⟩
  | attempts hmove =>
    refine ⟨le_rfl, ?_⟩
    rintro g ⟨b', hb', hg⟩
    obtain ⟨b, hb, rfl⟩ := mem_updateWhere.mp hb'
    split at hg
    · rename_i hsel
      obtain ⟨h1, h2, h3⟩ := (hmove b hb hsel).same
      refine .inl ⟨b, hb, ?_⟩
      rw [isGeneration_iff] at hg ⊢
      rw [h1, h2, h3] at hg
      exact hg
    · exact .inl ⟨b, hb, hg⟩
  | cart =>
    unfold ensureCart
    split <;> exact .of_attempts rfl le_rfl
  | pay =>
    unfold insertPaidEvent
    split <;> exact .of_attempts rfl le_rfl
  | redeem htx hr =>
    obtain ⟨t, rfl⟩ := redeemPromotion_frame hr
    exact .of_attempts rfl le_rfl
  | uuid | order | task | claimTask | claimReconciliation =>
    exact .of_attempts rfl (Nat.le_succ _)
  | cancel | checkOut | exposure | analytics | tasks | reconciliation | reconciliations => exact .of_attempts rfl le_rfl

theorem PaymentEffect.attempts {Q : PaymentStore.Scope} {db db' : Db}
    (h : PaymentStore.Effect Q db db') :
    db'.checkout.attempts = db.checkout.attempts ∧ db'.nextUuid = db.nextUuid := by
  cases h with
  | act hq hvalid hnew hact => cases hact <;> exact ⟨rfl, rfl⟩
  | refl | refuse | quarantine | resolve => exact ⟨rfl, rfl⟩

theorem Committed.fresher {db db' : Db} {a : Action} (h : Committed db a db') :
    Fresher db db' := by
  cases h with
  | checkout hr =>
    exact (Tx.run_changes hr).invariant (I := Fresher db) (.refl db)
      fun a b ha hc => ha.trans hc.fresher
  | inventory hK heff =>
    obtain ⟨hck, -, -, hu⟩ := heff.frame
    exact .of_attempts (by rw [hck]) hu.ge
  | payment heff =>
    refine heff.invariant (I := Fresher db) (.refl db) fun a b ha he => ha.trans ?_
    obtain ⟨h1, h2⟩ := PaymentEffect.attempts he
    exact .of_attempts h1 h2.ge
  | decided hnow hi =>
    obtain ⟨rfl, -, -⟩ := PaymentStore.insertDecision_ok hi
    exact .of_attempts rfl le_rfl
  | elapse => exact .of_attempts rfl le_rfl

theorem MachineInv.fresher {s u : State} {a : Action} (h : MachineInv s)
    (hs : Checkout.step s a = some u) : Fresher s.db u.db := by
  rcases step_some h.keys hs with ⟨hc, -⟩ | ⟨-, rfl⟩
  · exact hc.fresher
  · exact .refl _

/-! ## A superseded generation -/

/-- A worker whose generation is not current holds no row. -/
theorem FenceInv.held_none {db : Db} {claims : List ClaimedTask} (h : FenceInv db claims)
    {task : ClaimedTask} (hc : task ∈ claims) (hold : ¬ Current db task.fence.generation) :
    ∀ t ∈ db.checkout.tasks, isHeldBy db.now task t = false := by
  intro t ht
  rw [← Bool.not_eq_true]
  intro hheld
  have hp := isHeldBy_processing hheld
  simp only [isHeldBy, Bool.and_eq_true, decide_eq_true_eq] at hheld
  have hg := h.claimed task hc t ht hp hheld.1.2.2.2
  exact hold (hg ▸ h.tasks t ht (by simp [isOpenTask, hp]))

/-- What a step that carries a generation commits once the generation is not
current: nothing. -/
theorem MachineInv.fenced {s u : State} {a : Action} {g : Generation} (h : MachineInv s)
    (hold : ¬ Current s.db g) (hg : a.generation = some g)
    (hs : Checkout.step s a = some u) :
    a.commit s.db = none ∨ a.commit s.db = some s.db := by
  cases a with
  | checkout tx =>
    by_cases hresch : ∃ task, tx = .rescheduleCompensationTask task
    · -- the claim selects its row by the claim token alone, and finds none
      obtain ⟨task, rfl⟩ := hresch
      cases hg
      have hmem : task ∈ s.claims := by
        unfold Checkout.step at hs
        split at hs
        · rename_i hall
          simpa [Action.claim, Tx.claim] using hall
        · cases hs
      refine .inr ?_
      simp only [Action.commit, Tx.run, rescheduleCompensationTask, committedDb, updateTasks,
        updateWhere_eq_self (h.fences.held_none hmem hold)]
      rfl
    · refine .inl ?_
      cases hr : tx.run s.db with
      | error e => simp [Action.commit, hr, committedDb]
      | ok r =>
        have hcur := Tx.run_current hr hg fun task heq => hresch ⟨task, heq⟩
        exact absurd hcur hold
  | inventory a =>
    refine .inl ?_
    cases hdb : Action.commit s.db (.inventory a) with
    | none => rfl
    | some db' =>
      refine absurd ?_ hold
      cases a with
      | reserve q =>
        obtain ⟨r, hr⟩ := committedDb_some hdb
        exact reserve_current hr hg
      | release q =>
        obtain ⟨r, hr⟩ := committedDb_some hdb
        exact release_current hr hg
      | consume q =>
        obtain ⟨r, hr⟩ := committedDb_some hdb
        exact consume_current hr hg
      | reap | environment => cases hg
  | payment | elapse => cases hg

/-- A claim of an attempt that has a generation and yields a new lease is a
reclaim. -/
theorem claimCheckoutAttempt_reclaims {db db' : Db} {claims : List ClaimedTask}
    {g : Generation} {fingerprint : CheckoutInput} {token : Nat} (h : FenceInv db claims)
    (hg : Current db g)
    (hc : claimCheckoutAttempt g.tenantId g.requestId fingerprint db = .ok (.new token, db')) :
    ∃ a ∈ db.checkout.attempts, isGeneration g a = true ∧ a.status = .started ∧
      isStale db.now a = true ∧ db' = reclaim db g := by
  obtain ⟨b, hb, hbg⟩ := hg
  obtain ⟨ht, hr, htok⟩ := isGeneration_iff.mp hbg
  unfold claimCheckoutAttempt at hc
  split at hc
  · rename_i hnone
    have := List.find?_eq_none.mp hnone b hb
    simp [isAttempt, ht, hr] at this
  · rename_i a hfind
    obtain ⟨ha, hkey⟩ := find?_some_spec hfind
    simp only [isAttempt, decide_eq_true_eq] at hkey
    have hab : a = b := h.attempt_eq ha hb (hkey.1.trans ht.symm) (hkey.2.trans hr.symm)
    subst hab
    have hgen : (⟨a.tenantId, a.requestId, a.leaseToken⟩ : Generation) = g := by
      rw [ht, hr, htok]
    split at hc
    · cases hc
    · split at hc
      · rename_i hs
        split at hc
        · rename_i hstale
          refine ⟨a, ha, hbg, hs, hstale, ?_⟩
          unfold claimStaleAttempt at hc
          rw [hgen] at hc
          simp only at hc
          split at hc
          · split at hc
            · split at hc <;> cases hc
            · split at hc <;> cases hc
              rfl
          · cases hc
            rfl
        · cases hc
      all_goals
        try split at hc
        all_goals cases hc

/-- After the reclaim the old generation is not current. -/
theorem not_current_reclaim {db : Db} {claims : List ClaimedTask} {g : Generation}
    (h : FenceInv db claims) {a : CheckoutAttempt} (ha : a ∈ db.checkout.attempts)
    (hg : isGeneration g a = true) (hs : a.status = .started)
    (hstale : isStale db.now a = true) : ¬ Current (reclaim db g) g := by
  obtain ⟨ht, hr, htok⟩ := isGeneration_iff.mp hg
  rintro ⟨b', hb', hbg⟩
  obtain ⟨b, hb, rfl⟩ := mem_updateWhere.mp hb'
  split at hbg
  · have := h.tokens a ha
    have hb := (isGeneration_iff.mp hbg).2.2
    simp only [reclaimed] at hb
    omega
  · rename_i hsel
    obtain ⟨hbt, hbr, -⟩ := isGeneration_iff.mp hbg
    cases h.attempt_eq hb ha (hbt.trans ht.symm) (hbr.trans hr.symm)
    simp [hg, hs, hstale] at hsel

/-- **Generation fencing.** Once a reclaim has committed a new lease token, no
later step that carries the superseded generation changes a row of any
table: it fails, or it commits the database it found. -/
theorem superseded_generation_fenced {s₀ s s' t u : State} {g : Generation}
    {fingerprint : CheckoutInput} {token : Nat} {db' : Db} {a : Action} (h0 : Initial s₀)
    (hs : Reach step (fun _ _ => True) s₀ s) (hg : Current s.db g)
    (hclaim : claimCheckoutAttempt g.tenantId g.requestId fingerprint s.db =
      .ok (.new token, db'))
    (hreclaim : step s (.checkout (.claimCheckoutAttempt g.tenantId g.requestId
      fingerprint)) = some s')
    (ht : Reach step (fun _ _ => True) s' t) (ha : a.generation = some g)
    (hu : step t a = some u) :
    (a.commit t.db = none ∨ a.commit t.db = some t.db) ∧ u.db = t.db := by
  have hstep : ∀ t a u, MachineInv t → True → step t a = some u → MachineInv u :=
    fun _ _ _ h _ hs => h.step hs
  have hinv : MachineInv s := hs.invariant (.initial h0) hstep
  have hinv' : MachineInv s' := hinv.step hreclaim
  obtain ⟨b, hb, hbg, hbs, hstale, rfl⟩ :=
    claimCheckoutAttempt_reclaims hinv.fences hg hclaim
  have hs' : s'.db = reclaim s.db g := by
    simp only [step, Action.claim, Tx.claim, Option.all_none, if_true, Action.commit,
      Tx.run, hclaim, committedDb] at hreclaim
    cases hreclaim
    rfl
  have hold' : ¬ Current s'.db g := by
    rw [hs']
    exact not_current_reclaim hinv.fences hb hbg hbs hstale
  have hfresh : Fresher s'.db t.db :=
    ht.relates (R := fun a b => Fresher a.db b.db) hinv' hstep (fun _ => .refl _)
      (fun _ _ _ => Fresher.trans) fun _ _ _ h _ hs => h.fresher hs
  have hold : ¬ Current t.db g := by
    intro hcur
    rcases hfresh.current g hcur with hback | hge
    · exact hold' hback
    · -- the superseded token was drawn before the reclaim
      have htok := hinv.fences.tokens b hb
      have hbt := (isGeneration_iff.mp hbg).2.2
      have hle : s.db.nextUuid ≤ s'.db.nextUuid := (hinv.fresher hreclaim).uuid
      omega
  have hfenced := (ht.invariant hinv' hstep).fenced hold ha hu
  refine ⟨hfenced, ?_⟩
  unfold step at hu
  split at hu
  · cases hu
    rcases hfenced with hnone | hsome
    · simp [hnone]
    · simp [hsome]
  · cases hu

/-- An empty shop. -/
def sampleStart : State where
  db :=
    { now := 0
      nextUuid := 0
      checkout := ⟨[], [], [], [], [], [], [], [], []⟩
      payment := ⟨0, [], [], []⟩
      inventory := ⟨[], [], [], []⟩ }
  claims := []

def sampleInput : CheckoutInput :=
  ⟨1, 1, 1, none, [], 1, none, .other 0, .card, ⟨1, 1⟩, false, 0⟩

/-- The request of `sampleInput` claims its attempt, for the first time or
again. -/
def sampleClaim : Action := .checkout (.claimCheckoutAttempt 1 ⟨1, 1⟩ sampleInput)

/-- The attempt was opened and its handler then fell silent. -/
def sampleSilent : State :=
  (run step sampleStart [sampleClaim, .elapse (2 * attemptStaleAfter)]).getD sampleStart

def sampleReclaimed : State := (step sampleSilent sampleClaim).getD sampleSilent

/-- The silent handler comes back and records a failure. -/
def sampleZombie : Action :=
  .checkout (.recordCheckoutFailure ⟨1, ⟨1, 1⟩, 0⟩ ⟨503, .paymentTimeout, ""⟩)

theorem superseded_generation_fenced_sample :
    sampleReclaimed.db.checkout.attempts.map (·.leaseToken) = [1] ∧
    (sampleZombie.commit sampleReclaimed.db = none ∨
      sampleZombie.commit sampleReclaimed.db = some sampleReclaimed.db) ∧
    ((step sampleReclaimed sampleZombie).getD sampleReclaimed).db = sampleReclaimed.db :=
  have hrun : run step sampleStart [sampleClaim, .elapse (2 * attemptStaleAfter)] =
      some sampleSilent := rfl
  have hstep : step sampleReclaimed sampleZombie =
      some ((step sampleReclaimed sampleZombie).getD sampleReclaimed) := rfl
  ⟨by decide, superseded_generation_fenced (g := ⟨1, ⟨1, 1⟩, 0⟩)
    ⟨rfl, rfl, rfl, rfl, rfl, rfl⟩ (reach_of_run hrun) ⟨_, List.mem_cons_self, by decide⟩
    rfl rfl Reach.refl rfl hstep⟩

end CommercePlayground.Checkout
