/-
CommercePlayground.Checkout.WakeTheorems — a checkout whose payment leaves
`pending` is picked up again without another client request.

The payment service queues the reconciliation of a payment in the
transaction that takes the payment out of `pending`, but only a row that is
waiting at that moment. A row that is not registered yet, or that a worker
holds in its last run, is passed over, and nothing queues it afterwards.
`pending_checkout_woken` shows that these are the only ways to lose a
wake-up: it holds in every run in which

* no registration comes after the payment left `pending`,
* no decision is applied to a payment whose reconciliation is in its last run,
* no last run starts after the payment left `pending`.
-/
import CommercePlayground.Checkout.ReconciliationTheorems

namespace CommercePlayground.Checkout

open Lib

/-! ## The property and the condition -/

/-- **No lost wake-up.** A payment that was pending in `s₁` and is not in `s₂`
has its reconciliation closed, in somebody's hands, or scheduled. -/
def NoLostWakeup (s₁ s₂ : Flight) : Prop :=
  ∀ p ∈ s₁.db.payment.payments, p.status = .pending →
  ∀ p' ∈ s₂.db.payment.payments, p'.id = p.id → p'.status ≠ .pending →
  ∀ r ∈ s₂.db.checkout.reconciliations, isPaymentOf r p' = true →
    r.status ≠ .completed → r.status ≠ .failed → s₂.atWork r = false → isScheduled r = true

instance (s₁ s₂ : Flight) : Decidable (NoLostWakeup s₁ s₂) := by
  unfold NoLostWakeup
  infer_instance

/-- A worker holds the row and has no further run. -/
def inLastRun (r : Reconciliation) : Bool :=
  decide (r.status = .processing) && decide (reconciliationMaxAttempts ≤ r.attempts)

/-- Condition on a run: see the head of the file. -/
def inTime (s : Flight) : Event → Bool
  | .act (.checkout (.registerPendingPaymentReconciliation order lease _ _ _)) =>
    s.db.payment.payments.all fun p =>
      !(decide (p.id = ⟨order.tenantId, .authorize lease.requestId⟩) && leftPending p)
  | .act (.checkout (.claimPaymentReconciliation pick)) =>
    s.db.checkout.reconciliations.all fun r =>
      !(isReconciliation pick.1 pick.2 r &&
        s.db.payment.payments.any fun p => isPaymentOf r p && leftPending p) ||
      decide (r.attempts + 1 < reconciliationMaxAttempts)
  | .act (.payment a) =>
    s.db.payment.payments.all fun p =>
      !(decide (p.status = .pending) &&
        (PaymentStore.scope s.db a).payments p.tenantId p.id && PaymentStore.hasDecision s.db p) ||
      s.db.checkout.reconciliations.all fun r => !(isPaymentOf r p && inLastRun r)
  | _ => true

/-! ## Rows of settled payments -/

/-- Nothing is left to do, or some worker will do it. -/
def Remembered (r : Reconciliation) : Prop :=
  r.status = .completed ∨ r.status = .failed ∨ isScheduled r = true

/-- Every reconciliation of a payment that left `pending` is remembered. -/
def Woken (db : Db) : Prop :=
  ∀ p ∈ db.payment.payments, leftPending p = true →
    ∀ r ∈ db.checkout.reconciliations, isPaymentOf r p = true → Remembered r

theorem isScheduled_iff {r : Reconciliation} : isScheduled r = true ↔
    (r.status = .queued ∨ r.status = .processing ∧ r.leaseExpiresAt.isSome = true) ∧
      r.attempts < reconciliationMaxAttempts := by
  simp [isScheduled]

theorem isPaymentOf_iff {r : Reconciliation} {p : Payment} :
    isPaymentOf r p = true ↔ p.id = ⟨r.tenantId, .authorize r.requestId⟩ := by
  simp [isPaymentOf]

/-- A remembered row a worker holds has a run left. -/
theorem Remembered.processing {r : Reconciliation} (h : Remembered r)
    (hs : r.status = .processing) : r.attempts < reconciliationMaxAttempts := by
  rcases h with hc | hf | hsch
  · rw [hs] at hc; cases hc
  · rw [hs] at hf; cases hf
  · exact (isScheduled_iff.mp hsch).2

/-- A remembered row that is queued has a run left, and none waits for the
provider. -/
theorem Remembered.waiting {r : Reconciliation} (h : Remembered r)
    (hs : r.status = .awaitingProvider ∨ r.status = .queued) :
    r.status = .queued ∧ r.attempts < reconciliationMaxAttempts := by
  rcases h with hc | hf | hsch
  · rcases hs with hs | hs <;> rw [hs] at hc <;> cases hc
  · rcases hs with hs | hs <;> rw [hs] at hf <;> cases hf
  · obtain ⟨hst, hlt⟩ := isScheduled_iff.mp hsch
    rcases hst with hq | ⟨hp, -⟩
    · exact ⟨hq, hlt⟩
    · rcases hs with hs | hs <;> rw [hs] at hp <;> cases hp

/-- Every move keeps a remembered row remembered, unless it registers it again
or starts its last run. -/
theorem Remembered.move {tx : Tx} {db : Db} {ws : List PaymentReconciliationJob}
    {r r' : Reconciliation} (hinv : QueueInv db ws)
    (hjob : ∀ job, tx.job = some job → job ∈ ws)
    (hr : r ∈ db.checkout.reconciliations) (h : Remembered r) (hm : QueueMove tx db r r')
    (hregister : ∀ order lease p m b,
      tx = .registerPendingPaymentReconciliation order lease p m b →
        isReconciliation order.tenantId lease.requestId r = false)
    (hclaim : ∀ pick, tx = .claimPaymentReconciliation pick →
      isReconciliation pick.1 pick.2 r = true → r.attempts + 1 < reconciliationMaxAttempts) :
    Remembered r' := by
  cases hm with
  | extend hs =>
    refine .inr (.inr (isScheduled_iff.mpr ⟨.inr ⟨hs, rfl⟩, h.processing hs⟩))
  | reregister htx _ hsel =>
    rw [hregister _ _ _ _ _ htx] at hsel
    cases hsel
  | wake htx hsel hs =>
    exact .inr (.inr (isScheduled_iff.mpr ⟨.inl rfl, (h.waiting hs).2⟩))
  | claim htx hsel _ =>
    exact .inr (.inr (isScheduled_iff.mpr ⟨.inr ⟨rfl, rfl⟩, hclaim _ htx hsel⟩))
  | exhaust hs hmax => exact absurd (h.processing hs) (Nat.not_lt.mpr hmax)
  | attach hs =>
    rcases h with hc | hf | hsch
    · exact .inl hc
    · exact .inr (.inl hf)
    · exact .inr (.inr hsch)
  | @reschedule job htx hsel =>
    have hlt := h.processing (isJob_processing hsel)
    have hsame := hinv.job_attempts (hjob job (by rw [htx]; rfl)) hr hsel
    unfold rescheduled
    rw [if_neg (by omega)]
    exact .inr (.inr (isScheduled_iff.mpr ⟨.inl rfl, hlt⟩))
  | close _ hclosed =>
    rcases hclosed with rfl | rfl
    · exact .inl rfl
    · exact .inr (.inl rfl)
  | transfer hs =>
    rcases h with hc | hf | hsch
    · exact absurd hc hs
    · exact .inr (.inl (by simp [transferred, hf]))
    · obtain ⟨hst, hlt⟩ := isScheduled_iff.mp hsch
      refine .inr (.inr (isScheduled_iff.mpr ⟨.inl ?_, hlt⟩))
      rcases hst with hq | ⟨hp, -⟩
      · simp [transferred, hq]
      · simp [transferred, hp, hlt]

/-- A transaction of checkout that comes in time. -/
theorem Woken.write {s : Flight} {tx : Tx} {db' : Db} (h : Woken s.db) (hinv : FlightInv s)
    (hjob : ∀ job, tx.job = some job → job ∈ s.workers)
    (hcond : inTime s (.act (.checkout tx)) = true)
    (hw : QueueWrite tx s.db db'.checkout.reconciliations)
    (hp : db'.payment = s.db.payment) : Woken db' := by
  intro p hmem hleft
  rw [hp] at hmem
  generalize db'.checkout.reconciliations = t at hw
  cases hw with
  | keep => exact h p hmem hleft
  | register htx =>
    intro r hr hof
    rcases List.mem_append.mp hr with hr | hr
    · exact h p hmem hleft r hr hof
    · cases List.mem_singleton.mp hr
      subst htx
      have := List.all_eq_true.mp hcond p hmem
      simp [isPaymentOf_iff.mp hof, newReconciliation, hleft] at this
  | update hmove =>
    intro r' hr' hof
    obtain ⟨r, hr, rfl⟩ := mem_updateWhere.mp hr'
    split at hof
    · rename_i hsel
      rw [if_pos hsel]
      have hm := hmove r hr hsel
      obtain ⟨ht, hq, -⟩ := hm.key
      have hofr : isPaymentOf r p = true := by
        rw [isPaymentOf_iff] at hof ⊢
        rw [hof, ht, hq]
      refine (h p hmem hleft r hr hofr).move hinv.queue hjob hr hm ?_ ?_
      · intro order lease pay m b htx
        subst htx
        have := List.all_eq_true.mp hcond p hmem
        by_contra hne
        rw [Bool.not_eq_false, isReconciliation_iff] at hne
        simp [isPaymentOf_iff.mp hofr, hne, hleft] at this
      · intro pick htx hpick
        subst htx
        have hall := List.all_eq_true.mp hcond r hr
        have hany : (s.db.payment.payments.any fun p => isPaymentOf r p && leftPending p) = true :=
          List.any_eq_true.mpr ⟨p, hmem, by simp [hofr, hleft]⟩
        simpa [hpick, hany] using hall
    · rename_i hsel
      rw [if_neg hsel]
      exact h p hmem hleft r hr hof

/-! ## Payments -/

/-- No payment whose decision the transaction may apply has its reconciliation
in its last run. -/
def Ready (Q : PaymentStore.Scope) (db : Db) : Prop :=
  ∀ p ∈ db.payment.payments, p.status = .pending → Q.payments p.tenantId p.id = true →
    PaymentStore.hasDecision db p = true →
    ∀ r ∈ db.checkout.reconciliations, isPaymentOf r p = true → inLastRun r = false

theorem ready_of_inTime {s : Flight} {a : PaymentStore.Action}
    (h : inTime s (.act (.payment a)) = true) : Ready (PaymentStore.scope s.db a) s.db := by
  intro p hp hpending hscope hdecision r hr hof
  have hall := List.all_eq_true.mp h p hp
  simp only [hpending, hscope, hdecision, decide_true, Bool.and_self, Bool.not_true,
    Bool.false_or] at hall
  simpa [hof] using List.all_eq_true.mp hall r hr

/-- A step that neither writes the queue nor takes a payment out of `pending`. -/
theorem Woken.of_payments {db db' : Db} (h : Woken db)
    (hq : db'.checkout.reconciliations = db.checkout.reconciliations)
    (hp : ∀ p' ∈ db'.payment.payments, leftPending p' = true →
      ∃ p ∈ db.payment.payments, p.id = p'.id ∧ leftPending p = true) : Woken db' := by
  intro p' hp' hleft r hr hof
  obtain ⟨p, hmem, hid, hl⟩ := hp p' hp' hleft
  rw [hq] at hr
  exact h p hmem hl r hr (by rw [isPaymentOf_iff] at hof ⊢; rw [hid, hof])

/-- Rewriting a payment without counting a reconciliation. -/
theorem leftPending_updateWhere {sel : Payment → Bool} {f : Payment → Payment}
    {t : List Payment}
    (hf : ∀ p, (f p).id = p.id ∧
      (f p).pendingReconciliationAttempts = p.pendingReconciliationAttempts) :
    ∀ p' ∈ updateWhere sel f t, leftPending p' = true →
      ∃ p ∈ t, p.id = p'.id ∧ leftPending p = true := by
  intro p' hp' hleft
  obtain ⟨p, hp, rfl⟩ := mem_updateWhere.mp hp'
  split at hleft
  · rename_i hsel
    rw [if_pos hsel]
    refine ⟨p, hp, (hf p).1.symm, ?_⟩
    unfold leftPending at hleft ⊢
    rw [(hf p).2] at hleft
    exact hleft
  · rename_i hsel
    rw [if_neg hsel]
    exact ⟨p, hp, rfl, hleft⟩

/-- The authorize request of a pending payment is the one its id is made of. -/
theorem authorizes_id {db : Db} {p : Payment} {requestId : PaymentRequestId}
    {o : StoredOperation} (h : PaymentStore.LedgerInv db) (ho : o ∈ db.payment.operations)
    (hauth : PaymentStore.Authorizes p requestId o) : p.id = ⟨o.tenantId, requestId⟩ := by
  obtain ⟨-, hpid, hop, hrid⟩ := hauth
  have hrow := h.authorizes o ho hop
  cases hres : o.result with
  | error e =>
    rw [hrow.failed e hres] at hpid
    cases hpid
  | ok r =>
    rw [(hrow.payment r hres).1, hrid] at hpid
    exact (Option.some.injEq _ _ ▸ hpid).symm

/-- The row of a payment just resolved: it was requeued, or it was not waiting. -/
theorem Remembered.resolved {db : Db} {ws : List PaymentReconciliationJob} {p : Payment}
    {requestId : PaymentRequestId} {sel : Reconciliation → Bool} {r : Reconciliation}
    (hinv : QueueInv db ws) (hid : p.id = ⟨p.tenantId, requestId⟩)
    (hsel : ∀ r, sel r = true → PaymentStore.Wakes p requestId r)
    (hall : ∀ rid, checkoutRequestId requestId = some rid →
      db.checkout.reconciliations.any
        (PaymentStore.awaitsAuthorize p.tenantId rid requestId) = true →
      ∃ r ∈ db.checkout.reconciliations, sel r = true)
    (hr : r ∈ db.checkout.reconciliations) (hof : isPaymentOf r p = true)
    (hlast : inLastRun r = false) (hnot : sel r = false) : Remembered r := by
  rw [isPaymentOf_iff, hid] at hof
  obtain ⟨htenant, hrequest⟩ : p.tenantId = r.tenantId ∧ requestId = .authorize r.requestId := by
    simpa using hof
  have hrow := hinv.rows r hr
  -- a waiting row is among those the payment service looks at, so it is requeued
  have hwaits : ¬ (r.status = .awaitingProvider ∨ r.status = .queued) := by
    intro hs
    have hrid : checkoutRequestId requestId = some r.requestId := by
      rw [hrequest]
      simp [checkoutRequestId, hrow.named]
    obtain ⟨r₂, hr₂, hs₂⟩ := hall r.requestId hrid (List.any_eq_true.mpr ⟨r, hr, by
      simp [PaymentStore.awaitsAuthorize, htenant, hrequest, hrow.authorize, hs]⟩)
    obtain ⟨ht₂, hq₂, -⟩ := hsel r₂ hs₂
    rw [hrequest] at hq₂
    cases hinv.row_eq hr₂ hr (ht₂.trans htenant) (by simpa using hq₂.symm)
    rw [hs₂] at hnot
    cases hnot
  cases hs : r.status with
  | queued => exact absurd (.inr hs) hwaits
  | awaitingProvider => exact absurd (.inl hs) hwaits
  | completed => exact .inl hs
  | failed => exact .inr (.inl hs)
  | processing =>
    refine .inr (.inr (isScheduled_iff.mpr ⟨.inr ⟨hs, ?_⟩, ?_⟩))
    · exact (leaseChecks_iff.mp hrow.leases).2.mpr hs
    · simpa [inLastRun, hs] using hlast

/-- An effect of the payment service that comes in time. -/
theorem Woken.effect {Q : PaymentStore.Scope} {db db' : Db}
    {ws : List PaymentReconciliationJob} (h : Woken db) (hinv : QueueInv db ws)
    (hc : PaymentStore.Consistent db) (hready : Ready Q db)
    (he : PaymentStore.Effect Q db db') : Woken db' := by
  cases he with
  | refl => exact h
  | act hq hvalid hnew hact =>
    cases hact with
    | authorize hmessage horder hpayable htotal hinactive hstatus hp =>
      refine h.of_payments rfl fun p' hp' hleft => ?_
      rcases List.mem_append.mp hp' with hold | hnew'
      · exact ⟨p', hold, rfl, hleft⟩
      · cases List.mem_singleton.mp hnew'
        rw [hp] at hleft
        cases hleft
    | capture => exact h.of_payments rfl (leftPending_updateWhere fun _ => ⟨rfl, rfl⟩)
    | void => exact h.of_payments rfl (leftPending_updateWhere fun _ => ⟨rfl, rfl⟩)
    | refund => exact h.of_payments rfl (leftPending_updateWhere fun _ => ⟨rfl, rfl⟩)
  | refuse => exact h.of_payments rfl fun p' hp' hleft => ⟨p', hp', rfl, hleft⟩
  | quarantine => exact h.of_payments rfl (leftPending_updateWhere fun _ => ⟨rfl, rfl⟩)
  | @resolve p requestId d sel hmem hpending hop hd hm hsel hall hq =>
    obtain ⟨o, ho, hauth⟩ := hop
    have hid : p.id = ⟨p.tenantId, requestId⟩ := by
      rw [authorizes_id hc.2 ho hauth, hauth.1]
    intro p' hp' hleft r' hr' hof
    obtain ⟨r, hr, rfl⟩ := mem_updateWhere.mp hr'
    by_cases hs : sel r = true
    · rw [if_pos hs]
      exact .inr (.inr (isScheduled_iff.mpr ⟨.inl rfl, by
        show 0 < reconciliationMaxAttempts
        decide⟩))
    · rw [if_neg hs] at hof ⊢
      rw [Bool.not_eq_true] at hs
      obtain ⟨q, hqmem, rfl⟩ := mem_updateWhere.mp hp'
      split at hleft
      · -- the payment just resolved
        rename_i hrow
        rw [if_pos hrow] at hof
        obtain ⟨-, hqid, -⟩ := of_decide_eq_true hrow
        have hqp : q = p := hc.1.ids.eq_of_mem hqmem hmem hqid
        subst hqp
        have hof' : isPaymentOf r q = true := by
          rw [isPaymentOf_iff] at hof ⊢
          exact hof
        refine Remembered.resolved hinv hid hsel hall hr hof' ?_ hs
        exact hready q hmem hpending hq (List.any_eq_true.mpr ⟨d, hd, hm⟩) r hr hof'
      · rename_i hrow
        rw [if_neg hrow] at hof
        exact h q hqmem hleft r hr hof

/-- A row that is in its last run after a requeue was in it before. -/
theorem inLastRun_requeued {sel : Reconciliation → Bool} {now : Nat} {id : PaymentId}
    {t : List Reconciliation} {r' : Reconciliation}
    (hr' : r' ∈ updateWhere sel (PaymentStore.requeued now id) t)
    (hlast : inLastRun r' = true) : r' ∈ t := by
  obtain ⟨r, hr, rfl⟩ := mem_updateWhere.mp hr'
  split at hlast
  · cases hlast
  · rename_i hsel
    rw [if_neg hsel]
    exact hr

/-- A batch of decisions stays in time: applying one starts no last run. -/
theorem Ready.effect {Q : PaymentStore.Scope} {db db' : Db} (h : Ready Q db)
    (hnone : ∀ q, ¬ Q.requests q) (he : PaymentStore.Effect Q db db') : Ready Q db' := by
  cases he with
  | refl => exact h
  | act hq => exact absurd hq (hnone _)
  | refuse hq => exact absurd hq (hnone _)
  | quarantine =>
    intro p' hp' hpending hscope hdecision r hr hof
    obtain ⟨p, hp, rfl⟩ := mem_updateWhere.mp hp'
    split at hpending
    · rename_i hsel
      rw [if_pos hsel] at hscope hdecision hof
      exact h p hp hpending hscope hdecision r hr hof
    · rename_i hsel
      rw [if_neg hsel] at hscope hdecision hof
      exact h p hp hpending hscope hdecision r hr hof
  | @resolve p₀ requestId d sel =>
    intro p' hp' hpending hscope hdecision r' hr' hof
    obtain ⟨p, hp, rfl⟩ := mem_updateWhere.mp hp'
    split at hpending
    · -- a resolved payment is not pending
      cases hout : d.outcome <;> simp [PaymentStore.resolvePayment, hout] at hpending
    · rename_i hsel
      rw [if_neg hsel] at hscope hdecision hof
      by_contra hlast
      rw [Bool.not_eq_false] at hlast
      rw [h p hp hpending hscope hdecision r' (inLastRun_requeued hr' hlast) hof] at hlast
      cases hlast

/-- A batch of decisions that comes in time. -/
theorem Woken.effects {Q : PaymentStore.Scope} {db db' : Db}
    {ws : List PaymentReconciliationJob} (h : Woken db) (hinv : QueueInv db ws)
    (hc : PaymentStore.Consistent db) (hready : Ready Q db) (hnone : ∀ q, ¬ Q.requests q)
    (he : PaymentStore.Effects Q db db') : Woken db' := by
  refine (he.invariant (I := fun x => Woken x ∧ QueueInv x ws ∧ PaymentStore.Consistent x ∧
    Ready Q x) ⟨h, hinv, hc, hready⟩ ?_).1
  rintro x y ⟨hw, hq, hcx, hr⟩ heff
  exact ⟨hw.effect hq hcx hr heff, hq.paymentEffect heff,
    ⟨hcx.1.effect heff, hcx.2.effect hcx.1 heff⟩, hr.effect hnone heff⟩

/-- A step of the payment service that comes in time. -/
theorem Woken.payment {s : Flight} {a : PaymentStore.Action} {db' : Db} (h : Woken s.db)
    (hinv : FlightInv s) (hcond : inTime s (.act (.payment a)) = true)
    (hcommit : Action.commit s.db (.payment a) = some db') : Woken db' := by
  have hready := ready_of_inTime hcond
  cases a with
  | request q =>
    cases hcommit
    exact h.effect hinv.queue hinv.payment hready (PaymentStore.serve_effect q s.db)
  | getPayment t id =>
    cases hcommit
    exact h.effect hinv.queue hinv.payment hready (PaymentStore.serveGetPayment_effect t id s.db)
  | reconcile n keys =>
    cases committed_of_payment hinv.keyed hcommit with
    | payment heff => exact h.effects hinv.queue hinv.payment hready (fun _ => id) heff
  | decide d =>
    cases committed_of_payment hinv.keyed hcommit with
    | payment heff => exact h.effects hinv.queue hinv.payment hready (fun _ => id) heff
    | decided hnow hi =>
      obtain ⟨rfl, -, -⟩ := PaymentStore.insertDecision_ok hi
      exact h
  | environment => cases hcommit

theorem Woken.step {s u : Flight} {e : Event} (h : Woken s.db) (hinv : FlightInv s)
    (hcond : inTime s e = true) (hs : s.step e = some u) : Woken u.db := by
  cases e with
  | arrive t q =>
    simp only [Flight.step] at hs
    split at hs <;> cases hs
    exact h
  | leave t q =>
    simp only [Flight.step] at hs
    split at hs <;> cases hs
    exact h
  | stop job =>
    simp only [Flight.step] at hs
    split at hs <;> cases hs
    exact h
  | act a =>
    obtain ⟨hjob, -, rfl⟩ := Flight.step_act hs
    cases hcommit : a.commit s.db with
    | none => exact h
    | some db' =>
      show Woken db'
      cases a with
      | checkout tx =>
        obtain ⟨r, hr⟩ := committedDb_some hcommit
        exact h.write hinv hjob hcond (Tx.queueWrite hr) (Tx.run_changes hr).frame.1
      | inventory a =>
        cases committed_of_commit hinv.keyed hcommit with
        | inventory hK heff =>
          obtain ⟨hck, hp, -, -⟩ := heff.frame
          exact h.of_payments (by rw [hck]) (by rw [hp]; exact fun p hmem hl => ⟨p, hmem, rfl, hl⟩)
      | payment a => exact h.payment hinv hcond hcommit
      | elapse time =>
        cases hcommit
        exact h

/-! ## Payments over a run -/

/-- A payment that is pending, or was. -/
def Tracked (p : Payment) : Prop := p.status = .pending ∨ leftPending p = true

/-- A tracked payment stays tracked. -/
def KeepsTrack (p p' : Payment) : Prop := p'.id = p.id ∧ (Tracked p → Tracked p')

theorem KeepsTrack.refl (p : Payment) : KeepsTrack p p := ⟨rfl, id⟩

theorem KeepsTrack.trans (p q r : Payment) (h₁ : KeepsTrack p q) (h₂ : KeepsTrack q r) :
    KeepsTrack p r := ⟨h₂.1.trans h₁.1, h₂.2 ∘ h₁.2⟩

/-- Captures, voids and refunds act on payments that are not pending. -/
theorem KeepsTrack.operate {db : Db} (hu : KeyUnique (·.id) db.payment.payments) {p : Payment}
    (hp : p ∈ db.payment.payments) (hs : p.status ≠ .pending) {t : TenantId}
    {f : Payment → Payment}
    (hf : ∀ q, (f q).id = q.id ∧
      (f q).pendingReconciliationAttempts = q.pendingReconciliationAttempts) :
    ∀ q ∈ db.payment.payments, PaymentStore.isRow t p.id q = true → KeepsTrack q (f q) := by
  intro q hq hsel
  have hqp : q = p := hu.eq_of_mem hq hp (PaymentStore.isRow_iff.mp hsel).2
  subst hqp
  refine ⟨(hf q).1, fun htrack => ?_⟩
  rcases htrack with hpend | hl
  · exact absurd hpend hs
  · refine .inr ?_
    unfold leftPending at hl ⊢
    rw [(hf q).2]
    exact hl

theorem settledStatus_ne_pending {s : PaymentStatus} (h : PaymentStore.settledStatus s = true) :
    s ≠ .pending := by
  rintro rfl
  cases h

theorem Effect.track {Q : PaymentStore.Scope} {db db' : Db} (hc : PaymentStore.Consistent db)
    (he : PaymentStore.Effect Q db db') :
    Evolves KeepsTrack db.payment.payments db'.payment.payments := by
  cases he with
  | refl => exact Evolves.refl KeepsTrack.refl _
  | refuse => exact Evolves.refl KeepsTrack.refl _
  | act hq hvalid hnew hact =>
    cases hact with
    | authorize => exact Evolves.insert KeepsTrack.refl _ _
    | capture _ hmem _ _ hs =>
      refine Evolves.update KeepsTrack.refl (KeepsTrack.operate hc.1.ids hmem ?_ fun _ => ⟨rfl, rfl⟩)
      rcases hs with hs | hs | hs <;> rw [hs] <;> decide
    | void _ hmem _ _ hs =>
      exact Evolves.update KeepsTrack.refl
        (KeepsTrack.operate hc.1.ids hmem (by rw [hs]; decide) fun _ => ⟨rfl, rfl⟩)
    | refund _ hmem _ _ hs =>
      exact Evolves.update KeepsTrack.refl
        (KeepsTrack.operate hc.1.ids hmem (settledStatus_ne_pending hs) fun _ => ⟨rfl, rfl⟩)
  | quarantine => exact Evolves.update KeepsTrack.refl fun q _ _ => ⟨rfl, id⟩
  | resolve =>
    exact Evolves.update KeepsTrack.refl fun q _ _ =>
      ⟨rfl, fun _ => .inr (by simp [leftPending, PaymentStore.resolvePayment])⟩

theorem Flight.track {s u : Flight} {e : Event} (hinv : FlightInv s) (hs : s.step e = some u) :
    Evolves KeepsTrack s.db.payment.payments u.db.payment.payments := by
  have hrefl : Evolves KeepsTrack s.db.payment.payments s.db.payment.payments :=
    Evolves.refl KeepsTrack.refl _
  cases e with
  | arrive t q =>
    simp only [Flight.step] at hs
    split at hs <;> cases hs
    exact hrefl
  | leave t q =>
    simp only [Flight.step] at hs
    split at hs <;> cases hs
    exact hrefl
  | stop job =>
    simp only [Flight.step] at hs
    split at hs <;> cases hs
    exact hrefl
  | act a =>
    obtain ⟨-, -, rfl⟩ := Flight.step_act hs
    cases hcommit : a.commit s.db with
    | none => exact hrefl
    | some db' =>
      show Evolves KeepsTrack s.db.payment.payments db'.payment.payments
      cases committed_of_commit hinv.keyed hcommit with
      | checkout hr => rw [(Tx.run_changes hr).frame.1]; exact hrefl
      | inventory hK heff => rw [heff.frame.2.1]; exact hrefl
      | payment heff =>
        exact heff.relates (R := fun x y => Evolves KeepsTrack x.payment.payments
          y.payment.payments) hinv.payment
          (fun _ _ hx he => ⟨hx.1.effect he, hx.2.effect hx.1 he⟩)
          (fun _ => Evolves.refl KeepsTrack.refl _)
          (fun _ _ _ h₁ h₂ => h₁.trans KeepsTrack.trans h₂) (fun _ _ hx he => Effect.track hx he)
      | decided hnow hi =>
        obtain ⟨rfl, -, -⟩ := PaymentStore.insertDecision_ok hi
        exact hrefl
      | elapse => exact hrefl

/-- **No lost wake-up of a pending checkout.** In every run whose steps come in
time, a payment that left `pending` has a reconciliation that is closed or
that some worker can claim without another client request. -/
theorem pending_checkout_woken {s₀ s₁ s₂ : Flight} (h0 : s₀.Initial)
    (h₁ : Reach Flight.step (fun s e => inTime s e = true) s₀ s₁)
    (h₂ : Reach Flight.step (fun s e => inTime s e = true) s₁ s₂) : NoLostWakeup s₁ s₂ := by
  have hstep : ∀ t e u, (FlightInv t ∧ Woken t.db) → inTime t e = true →
      Flight.step t e = some u → FlightInv u ∧ Woken u.db :=
    fun t e u ⟨hi, hw⟩ hcond hs => ⟨hi.step hs, hw.step hi hcond hs⟩
  have hinv₁ := h₁.invariant (I := fun s => FlightInv s ∧ Woken s.db)
    ⟨.initial h0, by simp [Woken, h0.payment.1]⟩ hstep
  have hinv₂ := h₂.invariant (I := fun s => FlightInv s ∧ Woken s.db) hinv₁ hstep
  have htrack := h₂.relates (I := fun s => FlightInv s ∧ Woken s.db)
    (R := fun x y => Evolves KeepsTrack x.db.payment.payments y.db.payment.payments) hinv₁ hstep
    (fun _ => Evolves.refl KeepsTrack.refl _) (fun _ _ _ ha hb => ha.trans KeepsTrack.trans hb)
    (fun _ _ _ hi _ hs => Flight.track hi.1 hs)
  intro p hp hpending p' hp' hid hleft r hr hof hnc hnf _
  obtain ⟨q, hq, hqid, htracked⟩ := htrack p hp
  have hqp : q = p' := hinv₂.1.payment.1.ids.eq_of_mem hq hp' (hqid.trans hid.symm)
  subst hqp
  rcases htracked (.inl hpending) with hpend | hl
  · exact absurd hpend hleft
  · rcases hinv₂.2 q hp' hl r hr hof with hc | hf | hsch
    · exact absurd hc hnc
    · exact absurd hf hnf
    · exact hsch

/-- A worker claims the job of the sample checkout. -/
def claimEvent : Event := .act (.checkout (.claimPaymentReconciliation (1, ⟨7, 1⟩)))

/-- The job a worker gets with the `n`-th claim. -/
def pendingJob (n : Nat) : PaymentReconciliationJob :=
  ⟨1, ⟨7, 1⟩, 102, .authorize ⟨7, 1⟩, some pendingPaymentId, 102, 200, 1, .card, n, 102 + n, 100⟩

/-- The worker found the payment pending, puts its job back and ends. -/
def putBackEvents (n : Nat) : List Event :=
  [.act (.checkout (.reschedulePaymentReconciliation (pendingJob n))), .stop (pendingJob n),
    .act (.elapse (5 * minute))]

/-- The provider decides, and the payment service applies the decision. -/
def decideEvents : List Event :=
  [.act (.payment (.decide
      ⟨1, pendingPaymentId, 0, ⟨0, pendingPaymentId⟩, 200, 1, .authorized, 0⟩)),
    .act (.payment (.reconcile 10 [(1, pendingPaymentId)]))]

/-- Seven workers find the payment pending. The decision comes while the
eighth, who has read the payment already, still holds the job. -/
def lateDecisionEvents : List Event :=
  ((List.range 7).map fun n => claimEvent :: putBackEvents (n + 1)).flatten ++
    claimEvent :: decideEvents ++ putBackEvents 8

/-- That decision wakes nobody: the payment service passes over the row in its
last run, and `reschedule_payment_reconciliation` then leaves it waiting. -/
theorem late_decision_lost :
    ¬ ∀ s₀ s₁ s₂ : Flight, s₀.Initial → Reach Flight.step (fun _ _ => True) s₀ s₁ →
      Reach Flight.step (fun _ _ => True) s₁ s₂ → NoLostWakeup s₁ s₂ := by
  intro h
  have hbad : ((run Flight.step pendingShop pendingEvents).any fun s₁ =>
      (run Flight.step s₁ lateDecisionEvents).any fun s₂ =>
        decide (¬ NoLostWakeup s₁ s₂)) = true := by
    decide
  cases hrun₁ : run Flight.step pendingShop pendingEvents with
  | none => rw [hrun₁] at hbad; cases hbad
  | some s₁ =>
    rw [hrun₁] at hbad
    simp only [Option.any_some] at hbad
    cases hrun₂ : run Flight.step s₁ lateDecisionEvents with
    | none => rw [hrun₂] at hbad; cases hbad
    | some s₂ =>
      rw [hrun₂] at hbad
      exact of_decide_eq_true hbad
        (h pendingShop s₁ s₂ pendingShop_initial (reach_of_run hrun₁) (reach_of_run hrun₂))

/-- A decision that comes while the first worker holds the job is not lost:
the row is queued when the worker is gone. -/
theorem pending_checkout_woken_sample :
    ∃ s₁ s₂, runWhere Flight.step inTime pendingShop pendingEvents = some s₁ ∧
      runWhere Flight.step inTime s₁ (claimEvent :: decideEvents ++ putBackEvents 1) = some s₂ ∧
      (s₂.db.payment.payments.map (·.status) = [.authorized] ∧
        s₂.db.checkout.reconciliations.map (·.status) = [.queued]) ∧
      NoLostWakeup s₁ s₂ := by
  have hgood : ((runWhere Flight.step inTime pendingShop pendingEvents).any fun s₁ =>
      (runWhere Flight.step inTime s₁ (claimEvent :: decideEvents ++ putBackEvents 1)).any
        fun s₂ => decide (s₂.db.payment.payments.map (·.status) = [.authorized] ∧
          s₂.db.checkout.reconciliations.map (·.status) = [.queued])) = true := by
    decide
  cases hrun₁ : runWhere Flight.step inTime pendingShop pendingEvents with
  | none => rw [hrun₁] at hgood; cases hgood
  | some s₁ =>
    rw [hrun₁] at hgood
    simp only [Option.any_some] at hgood
    cases hrun₂ : runWhere Flight.step inTime s₁
        (claimEvent :: decideEvents ++ putBackEvents 1) with
    | none => rw [hrun₂] at hgood; cases hgood
    | some s₂ =>
      rw [hrun₂] at hgood
      exact ⟨s₁, s₂, rfl, hrun₂, of_decide_eq_true hgood,
        pending_checkout_woken pendingShop_initial (reach_of_runWhere hrun₁)
          (reach_of_runWhere hrun₂)⟩

end CommercePlayground.Checkout
