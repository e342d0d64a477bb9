/-
CommercePlayground.Checkout.ReconciliationTheorems — when a payment
reconciliation is stuck, and when a pending checkout is forgotten.

* `queued_claimable`: as long as no exhausted job is woken, every queued row
  has a run left and is picked up once it is due.
* `pending_checkout_woken`: a payment that leaves `pending` leaves behind a
  row that some worker can claim, as long as neither the decision nor a
  registration comes too late.
-/
import CommercePlayground.Checkout.QueueTheorems

namespace CommercePlayground.Checkout

open Lib

/-! ## Queued jobs -/

/-- Every queued row has a run left. -/
def NoneStuck (db : Db) : Prop :=
  ∀ r ∈ db.checkout.reconciliations, r.status = .queued →
    r.attempts < reconciliationMaxAttempts

/-- Condition on a run: a handler wakes a job that waits for the provider only
while the job has a run left. -/
def wakesInTime (s : Flight) : Event → Bool
  | .act (.checkout (.wakePaymentReconciliation t requestId)) =>
    s.db.checkout.reconciliations.all fun r =>
      !(isReconciliation t requestId r && decide (r.status = .awaitingProvider)) ||
        decide (r.attempts < reconciliationMaxAttempts)
  | _ => true

theorem wakesInTime_wake {s : Flight} {t : TenantId} {q : RequestId}
    (h : wakesInTime s (.act (.checkout (.wakePaymentReconciliation t q))) = true)
    {r : Reconciliation} (hr : r ∈ s.db.checkout.reconciliations)
    (hsel : isReconciliation t q r = true) (hs : r.status = .awaitingProvider) :
    r.attempts < reconciliationMaxAttempts := by
  have := List.all_eq_true.mp h r hr
  simpa [hsel, hs] using this

/-- A job in hand agrees with the row it addresses. -/
theorem QueueInv.job_attempts {db : Db} {ws : List PaymentReconciliationJob}
    (h : QueueInv db ws) {job : PaymentReconciliationJob} (hjob : job ∈ ws)
    {r : Reconciliation} (hr : r ∈ db.checkout.reconciliations) (hsel : isJob job r = true) :
    r.attempts = job.attempts := by
  simp only [isJob, Bool.and_eq_true, decide_eq_true_eq] at hsel
  exact (h.jobs job hjob).2 r hr hsel.2.2

theorem NoneStuck.move {tx : Tx} {db : Db} {ws : List PaymentReconciliationJob}
    {r r' : Reconciliation} (hinv : QueueInv db ws)
    (hjob : ∀ job, tx.job = some job → job ∈ ws)
    (hwake : ∀ t q, tx = .wakePaymentReconciliation t q →
      isReconciliation t q r = true → r.status = .awaitingProvider →
        r.attempts < reconciliationMaxAttempts)
    (hr : r ∈ db.checkout.reconciliations)
    (h : r.status = .queued → r.attempts < reconciliationMaxAttempts)
    (hm : QueueMove tx db r r') (hq : r'.status = .queued) :
    r'.attempts < reconciliationMaxAttempts := by
  cases hm with
  | extend hs => exact h hq
  | reregister =>
    simp only [reregistered] at hq
    split at hq
    · cases hq
    · exact h hq
  | wake htx hsel hs =>
    rcases hs with hs | hs
    · exact hwake _ _ htx hsel hs
    · exact h hs
  | claim => cases hq
  | exhaust => cases hq
  | attach => exact h hq
  | @reschedule job htx hsel =>
    have hsame := hinv.job_attempts (hjob job (by rw [htx]; rfl)) hr hsel
    unfold rescheduled at hq ⊢
    split at hq
    · cases hq
    · rename_i hlt
      rw [if_neg hlt]
      show r.attempts < reconciliationMaxAttempts
      omega
  | close _ hclosed => rcases hclosed with rfl | rfl <;> cases hq
  | transfer =>
    simp only [transferred] at hq ⊢
    split at hq
    · split at hq
      · assumption
      · cases hq
    · exact h hq

theorem NoneStuck.write {tx : Tx} {db db' : Db} {ws : List PaymentReconciliationJob}
    (h : NoneStuck db) (hinv : QueueInv db ws) (hjob : ∀ job, tx.job = some job → job ∈ ws)
    (hwake : ∀ t q, tx = .wakePaymentReconciliation t q →
      ∀ r ∈ db.checkout.reconciliations, isReconciliation t q r = true →
        r.status = .awaitingProvider → r.attempts < reconciliationMaxAttempts)
    (hw : QueueWrite tx db db'.checkout.reconciliations) : NoneStuck db' := by
  unfold NoneStuck
  generalize db'.checkout.reconciliations = t at hw
  cases hw with
  | keep => exact h
  | register =>
    intro r hr hq
    rcases List.mem_append.mp hr with hr | hr
    · exact h r hr hq
    · cases List.mem_singleton.mp hr
      cases hq
  | update hmove =>
    intro r' hr' hq
    obtain ⟨r, hr, rfl⟩ := mem_updateWhere.mp hr'
    split at hq
    · rename_i hsel
      rw [if_pos hsel]
      exact NoneStuck.move hinv hjob (fun t q htx => hwake t q htx r hr) hr (h r hr)
        (hmove r hr hsel) hq
    · rename_i hsel
      rw [if_neg hsel]
      exact h r hr hq

/-- Payment resets the count of what it requeues. -/
theorem NoneStuck.paymentEffect {Q : PaymentStore.Scope} {db db' : Db} (h : NoneStuck db)
    (he : PaymentStore.Effect Q db db') : NoneStuck db' := by
  cases he with
  | act hq hvalid hnew hact => cases hact <;> exact h
  | refl => exact h
  | refuse => exact h
  | quarantine => exact h
  | resolve =>
    intro r' hr' hq
    obtain ⟨r, hr, rfl⟩ := mem_updateWhere.mp hr'
    split at hq
    · rename_i hsel
      rw [if_pos hsel]
      show 0 < reconciliationMaxAttempts
      decide
    · rename_i hsel
      rw [if_neg hsel]
      exact h r hr hq

theorem NoneStuck.step {s u : Flight} {e : Event} (h : NoneStuck s.db) (hinv : FlightInv s)
    (hcond : wakesInTime s e = true) (hs : s.step e = some u) : NoneStuck u.db := by
  cases e with
  | arrive t q =>
    simp only [Flight.step] at hs
    split at hs <;> cases hs
    exact h
  | leave t q =>
    simp only [Flight.step] at hs
    split at hs <;> cases hs
    exact h
  | stop job =>
    simp only [Flight.step] at hs
    split at hs <;> cases hs
    exact h
  | act a =>
    obtain ⟨hjob, -, rfl⟩ := Flight.step_act hs
    cases hcommit : a.commit s.db with
    | none => exact h
    | some db' =>
      show NoneStuck db'
      cases committed_of_commit hinv.keyed hcommit with
      | checkout hr =>
        refine h.write hinv.queue hjob (fun t q htx => ?_) (Tx.queueWrite hr)
        subst htx
        exact fun r hr => wakesInTime_wake hcond hr
      | inventory hK heff =>
        obtain ⟨hck, -, -, -⟩ := heff.frame
        unfold NoneStuck
        rw [hck]
        exact h
      | payment heff =>
        exact heff.invariant h fun _ _ ha he => ha.paymentEffect he
      | decided hnow hi =>
        obtain ⟨rfl, -, -⟩ := PaymentStore.insertDecision_ok hi
        exact h
      | elapse => exact h

/-- **A queued reconciliation is claimable.** In every run in which no handler
wakes an exhausted job, every row with status `queued` has a run left, and
`claim_payment_reconciliation` takes it once it is due and its parent attempt
is current. -/
theorem queued_claimable {s₀ s : Flight} (h0 : s₀.Initial)
    (hrun : Reach Flight.step (fun s e => wakesInTime s e = true) s₀ s) {r : Reconciliation}
    (hr : r ∈ s.db.checkout.reconciliations) (hq : r.status = .queued) :
    r.attempts < reconciliationMaxAttempts ∧
    (r.availableAt ≤ s.db.now →
      parentOpen s.db ⟨r.tenantId, r.requestId, r.checkoutLeaseToken⟩ true = true →
      ∃ db', claimPaymentReconciliation (r.tenantId, r.requestId) s.db =
        .ok (some (jobOf s.db.nextUuid r), db')) := by
  have hinv : FlightInv s ∧ NoneStuck s.db :=
    hrun.invariant (I := fun s => FlightInv s ∧ NoneStuck s.db)
      ⟨.initial h0, by simp [NoneStuck, h0.reconciliations]⟩
      fun t e u ⟨hi, hn⟩ hcond hs => ⟨hi.step hs, hn.step hi hcond hs⟩
  have hlt := hinv.2 r hr hq
  refine ⟨hlt, fun hdue hparent => ?_⟩
  have hclaim : isClaimable s.db r = true := by
    simp [isClaimable, hlt, hq, hdue, hparent]
  have hsel : (isReconciliation r.tenantId r.requestId r && isClaimable s.db r) = true := by
    simp [isReconciliation, hclaim]
  cases hfind : s.db.checkout.reconciliations.find? fun s' =>
      isReconciliation r.tenantId r.requestId s' && isClaimable s.db s' with
  | none => simpa [hsel] using List.find?_eq_none.mp hfind r hr
  | some s' =>
    obtain ⟨hmem, hsel'⟩ := find?_some_spec hfind
    simp only [Bool.and_eq_true] at hsel'
    obtain ⟨ht, hq'⟩ := isReconciliation_iff.mp hsel'.1
    cases hinv.1.queue.row_eq hmem hr ht hq'
    unfold claimPaymentReconciliation
    simp only [hfind]
    exact ⟨_, rfl⟩

/-- A shop with one product and nobody in it. -/
def pendingShop : Flight where
  db :=
    { now := 0
      nextUuid := 100
      checkout := ⟨[], [], [], [], [], [], [], [], []⟩
      payment := ⟨0, [], [], []⟩
      inventory := ⟨[⟨1, 1, 1, true, true⟩], [⟨1, 1, 1, true⟩], [⟨1, 1, 1, 1, 10, 0⟩], []⟩ }
  handlers := []
  workers := []

theorem pendingShop_initial : pendingShop.Initial := ⟨rfl, ⟨rfl, rfl, rfl⟩, rfl, rfl, rfl⟩

def pendingInput (token : PaymentToken) : CheckoutInput :=
  ⟨1, 1, 1, none, [⟨1, 2⟩], 1, none, token, .card, ⟨7, 1⟩, false, 0⟩

def pendingQuote : QuoteResponse :=
  ⟨true, true, 60, [⟨1, 2, some ⟨1, 100⟩, some ⟨1, 200⟩⟩], some ⟨1, 200⟩, some ⟨1, 0⟩, some ⟨1, 0⟩,
    some ⟨1, 200⟩⟩

def pendingLease : CheckoutLease := ⟨1, ⟨7, 1⟩, 100⟩

def pendingPaymentId : PaymentId := ⟨1, .authorize ⟨7, 1⟩⟩

/-- A checkout claims its attempt, creates its order and asks for a payment
that stays pending. -/
def authorizeEvents (token : PaymentToken) : List Event :=
  [.arrive 1 ⟨7, 1⟩,
    .act (.checkout (.claimCheckoutAttempt 1 ⟨7, 1⟩ (pendingInput token))),
    .act (.checkout (.createPendingOrder (pendingInput token) pendingQuote pendingLease)),
    .act (.payment (.request ⟨1, .authorize ⟨7, 1⟩, .authorize 102 ⟨1, 200⟩ .card token⟩))]

/-- The registration of its reconciliation. -/
def registerEvent : Event :=
  .act (.checkout (.registerPendingPaymentReconciliation
    ⟨102, 101, 1, 1, 1, 1, [⟨1, 1, 2, 100⟩], 200, 0, 0, 200, none⟩ pendingLease
    (some pendingPaymentId) .card false))

/-- The handler records the pending response, wakes the job and returns. -/
def respondEvents : List Event :=
  [.act (.checkout (.recordCheckoutResponse pendingLease .pending (some 102)
      ⟨.pending, 102, some pendingPaymentId⟩)),
    .act (.checkout (.wakePaymentReconciliation 1 ⟨7, 1⟩)), .leave 1 ⟨7, 1⟩]

def pendingEvents : List Event :=
  authorizeEvents .pendingUnknown ++ registerEvent :: respondEvents

/-- A worker claims the job and dies. -/
def claimAndDie : List Event :=
  [.act (.checkout (.claimPaymentReconciliation (1, ⟨7, 1⟩))),
    .act (.elapse reconciliationStaleAfter)]

/-- Eight workers die, the job is given back to the provider, and then the
client repeats its request, which wakes the job. -/
def exhaustingEvents : List Event :=
  pendingEvents ++ (List.replicate 8 claimAndDie).flatten ++
    [.act (.checkout .reclaimExhaustedPaymentReconciliation), .arrive 1 ⟨7, 1⟩,
      .act (.checkout (.claimCheckoutAttempt 1 ⟨7, 1⟩ (pendingInput .pendingUnknown))),
      .act (.checkout (.wakePaymentReconciliation 1 ⟨7, 1⟩))]

/-- `wake_payment_reconciliation` queues a job that has no run left. -/
theorem queued_row_stuck :
    ¬ ∀ s₀ s : Flight, s₀.Initial → Reach Flight.step (fun _ _ => True) s₀ s →
      ∀ r ∈ s.db.checkout.reconciliations, r.status = .queued →
        r.attempts < reconciliationMaxAttempts := by
  intro h
  have hbad : ((run Flight.step pendingShop exhaustingEvents).any fun s =>
      s.db.checkout.reconciliations.any fun r =>
        decide (r.status = .queued ∧ ¬ r.attempts < reconciliationMaxAttempts)) = true := by
    decide
  cases hrun : run Flight.step pendingShop exhaustingEvents with
  | none => rw [hrun] at hbad; cases hbad
  | some s =>
    rw [hrun] at hbad
    obtain ⟨r, hr, hstuck⟩ := List.any_eq_true.mp hbad
    simp only [decide_eq_true_eq] at hstuck
    exact hstuck.2 (h pendingShop s pendingShop_initial (reach_of_run hrun) r hr hstuck.1)

/-- The job of a checkout just answered `pending` is due and is taken. -/
theorem queued_claimable_sample : ∃ s, runWhere Flight.step wakesInTime pendingShop
      pendingEvents = some s ∧
    ∃ r ∈ s.db.checkout.reconciliations, r.status = .queued ∧
      r.attempts < reconciliationMaxAttempts ∧
      ∃ db', claimPaymentReconciliation (r.tenantId, r.requestId) s.db =
        .ok (some (jobOf s.db.nextUuid r), db') := by
  have hdue : ((runWhere Flight.step wakesInTime pendingShop pendingEvents).any fun s =>
      s.db.checkout.reconciliations.any fun r =>
        decide (r.status = .queued ∧ r.availableAt ≤ s.db.now) &&
          parentOpen s.db ⟨r.tenantId, r.requestId, r.checkoutLeaseToken⟩ true) = true := by
    decide
  cases hrun : runWhere Flight.step wakesInTime pendingShop pendingEvents with
  | none => rw [hrun] at hdue; cases hdue
  | some s =>
    rw [hrun] at hdue
    obtain ⟨r, hr, hp⟩ := List.any_eq_true.mp hdue
    simp only [Bool.and_eq_true, decide_eq_true_eq] at hp
    obtain ⟨hlt, hclaim⟩ :=
      queued_claimable pendingShop_initial (reach_of_runWhere hrun) hr hp.1.1
    exact ⟨s, rfl, r, hr, hp.1.1, hlt, hclaim hp.1.2 hp.2⟩

end CommercePlayground.Checkout
