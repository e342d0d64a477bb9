/-
CommercePlayground.Checkout.AttemptTheorems — the life of a checkout attempt.

Five transactions write `checkout_attempts`: the claim with its reclaim, the
two records of the handler and the two ends of a payment reconciliation. The
row is the idempotency contract of checkout: a paid or degraded attempt is
never written again, and a pending or failed one only by a reconciliation
worker that holds its claim (`Follows`). Every row keeps the CHECKs of its
table and, once failed, the whole error (`Recorded`), so a repeated request
reads back what was stored.
-/
import CommercePlayground.Checkout.RowTheorems
import CommercePlayground.Checkout.ContractTheorems

namespace CommercePlayground.Checkout

open Lib

/-- The attempt of a request. -/
def attemptOf (db : Db) (tenantId : TenantId) (requestId : RequestId) :
    Option CheckoutAttempt :=
  db.checkout.attempts.find? (isAttempt tenantId requestId)

/-! ## What follows what -/

/-- A reconciliation job of the attempt `x` ended, and `x'` is its outcome. -/
def SettledBy (tx : Tx) (x x' : CheckoutAttempt) : Prop :=
  ∃ job : PaymentReconciliationJob, isGeneration job.fence.generation x = true ∧
    ((∃ payload, tx = .completePaymentReconciliation job payload ∧ x'.status = .paid) ∨
      ∃ error, tx = .failPaymentReconciliation job error ∧ x'.status = .failed)

/-- What a transaction may make of an attempt. -/
structure Follows (tx : Tx) (x x' : CheckoutAttempt) : Prop where
  key : attemptKey x' = attemptKey x
  closed : x.status = .paid ∨ x.status = .degraded → x' = x
  waiting : x.status = .failed ∨ x.status = .pending → x' = x ∨ SettledBy tx x x'

theorem Follows.refl (tx : Tx) (x : CheckoutAttempt) : Follows tx x x :=
  ⟨rfl, fun _ => rfl, fun _ => .inl rfl⟩

/-- A started attempt may become anything. -/
theorem Follows.of_started {tx : Tx} {x x' : CheckoutAttempt} (hs : x.status = .started)
    (hkey : attemptKey x' = attemptKey x) : Follows tx x x' := by
  refine ⟨hkey, fun h => ?_, fun h => ?_⟩
  · rcases h with h | h <;> rw [hs] at h <;> cases h
  · rcases h with h | h <;> rw [hs] at h <;> cases h

/-- One transaction settles an attempt in one way only. -/
theorem SettledBy.trans {tx : Tx} {x y z : CheckoutAttempt} (h₁ : SettledBy tx x y)
    (h₂ : Follows tx y z) : SettledBy tx x z := by
  obtain ⟨job, hgen, ⟨payload, htx, hy⟩ | ⟨error, htx, hy⟩⟩ := h₁
  · rw [h₂.closed (.inl hy)]
    exact ⟨job, hgen, .inl ⟨payload, htx, hy⟩⟩
  · rcases h₂.waiting (.inl hy) with rfl | ⟨job', -, ⟨payload, htx', -⟩ | ⟨error', htx', hz⟩⟩
    · exact ⟨job, hgen, .inr ⟨error, htx, hy⟩⟩
    · rw [htx] at htx'
      cases htx'
    · exact ⟨job, hgen, .inr ⟨error, htx, hz⟩⟩

theorem Follows.trans {tx : Tx} (x y z : CheckoutAttempt) (h₁ : Follows tx x y)
    (h₂ : Follows tx y z) : Follows tx x z := by
  refine ⟨h₂.key.trans h₁.key, fun hx => ?_, fun hx => ?_⟩
  · obtain rfl := h₁.closed hx
    exact h₂.closed hx
  · rcases h₁.waiting hx with rfl | hsettled
    · exact h₂.waiting hx
    · exact .inr (hsettled.trans h₂)

theorem isSettledBy_spec {job : PaymentReconciliationJob} {x : CheckoutAttempt}
    (h : isSettledBy job x = true) : isGeneration job.fence.generation x = true ∧
      (x.status = .pending ∨ x.status = .failed ∨ x.status = .started) := by
  simp only [isSettledBy, Bool.and_eq_true, decide_eq_true_eq] at h
  exact h.1

/-- A row a job settles is open. -/
theorem Follows.of_settled {tx : Tx} {job : PaymentReconciliationJob} {x x' : CheckoutAttempt}
    (hsel : isSettledBy job x = true) (hkey : attemptKey x' = attemptKey x)
    (h : isGeneration job.fence.generation x = true → SettledBy tx x x') : Follows tx x x' := by
  obtain ⟨hgen, hs⟩ := isSettledBy_spec hsel
  refine ⟨hkey, fun hx => ?_, fun _ => .inr (h hgen)⟩
  rcases hs with hs | hs | hs <;> rw [hs] at hx <;> rcases hx with hx | hx <;> cases hx

theorem AttemptMove.follows {tx : Tx} {db : Db} {x x' : CheckoutAttempt}
    (h : AttemptMove tx db x x') : Follows tx x x' := by
  cases h with
  | extend hs => exact .of_started hs rfl
  | link htx hsel =>
    simp only [isLinkable, Bool.and_eq_true, decide_eq_true_eq] at hsel
    exact .of_started hsel.1.2 rfl
  | respond htx hsel => exact .of_started (isLiveLease_generation hsel).2 rfl
  | replay hs => exact .of_started hs rfl
  | reconciled htx hsel =>
    exact .of_settled hsel rfl fun hgen => ⟨_, hgen, .inl ⟨_, htx, rfl⟩⟩
  | fail htx hsel => exact .of_started (isLiveLease_generation hsel).2 rfl
  | failReconciled htx hsel =>
    exact .of_settled hsel rfl fun hgen => ⟨_, hgen, .inr ⟨_, htx, rfl⟩⟩

theorem Changes.follows {tx : Tx} {db db' : Db} (h : Changes tx db db') :
    Evolves (Follows tx) db.checkout.attempts db'.checkout.attempts := by
  refine h.invariant (I := fun d => Evolves (Follows tx) db.checkout.attempts
    d.checkout.attempts) (Evolves.refl (Follows.refl tx) _) fun a b ha hc => ?_
  refine ha.trans Follows.trans (hc.attemptWrite.evolves (Follows.refl tx)
    (fun _ _ hmove => hmove.follows) fun x hs => ?_)
  exact Follows.of_started hs rfl

/-! ## What is stored -/

/-- The row keeps its CHECKs, and a failed one has the whole error. -/
structure Recorded (x : CheckoutAttempt) : Prop where
  checks : x.outcomeChecks = true
  error : x.status = .failed → ∃ e : ApiError, x.errorStatus = some e.status.toI16 ∧
    x.errorCode = some e.code ∧ x.errorMessage = some e.message

theorem Recorded.new (db : Db) (t : TenantId) (r : RequestId) (fingerprint : CheckoutInput) :
    Recorded (newAttempt db t r fingerprint) := ⟨rfl, nofun⟩

theorem Recorded.reclaimed (now token : Nat) (x : CheckoutAttempt) :
    Recorded (reclaimed now token x) := ⟨rfl, nofun⟩

theorem Recorded.fail (now : Nat) (e : ApiError) (x : CheckoutAttempt) :
    Recorded (fail now e x) := ⟨rfl, fun _ => ⟨e, rfl, rfl, rfl⟩⟩

theorem Recorded.respond (now : Nat) {status : AttemptStatus} (orderId : Option OrderId)
    (payload : CheckoutPayload) (x : CheckoutAttempt) (h : isResponse status) :
    Recorded (respond now status orderId payload x) := by
  rcases h with rfl | rfl | rfl <;> exact ⟨rfl, nofun⟩

/-- Every write satisfies the CHECKs. -/
theorem AttemptMove.recorded {tx : Tx} {db : Db} {x x' : CheckoutAttempt}
    (h : AttemptMove tx db x x') (hx : Recorded x) : Recorded x' := by
  cases h with
  | extend => exact ⟨hx.checks, hx.error⟩
  | link => exact ⟨hx.checks, hx.error⟩
  | respond htx hsel hst => exact .respond _ _ _ _ hst
  | replay => exact .respond _ _ _ _ (.inr (.inl rfl))
  | reconciled => exact .respond _ _ _ _ (.inr (.inl rfl))
  | fail => exact .fail _ _ _
  | failReconciled => exact .fail _ _ _

theorem AttemptWrite.recorded {tx : Tx} {db : Db} {t : List CheckoutAttempt}
    (h : AttemptWrite tx db t) (hrows : ∀ x ∈ db.checkout.attempts, Recorded x) :
    ∀ x ∈ t, Recorded x := by
  cases h with
  | same => exact hrows
  | insert => exact forall_append_singleton hrows (.new _ _ _ _)
  | move hmove => exact forall_updateWhere hrows fun x hx hsel => (hmove x hx hsel).recorded
  | reclaim => exact forall_updateWhere hrows fun x _ _ _ => .reclaimed _ _ x

/-! ## The machine -/

/-- What a committed step makes of an attempt: only checkout writes them. -/
theorem Committed.attempts {db db' : Db} {a : Action} (h : Committed db a db') :
    db'.checkout.attempts = db.checkout.attempts ∨
      ∃ tx r, a = .checkout tx ∧ tx.run db = .ok (r, db') := by
  cases h with
  | checkout hr => exact .inr ⟨_, _, rfl, hr⟩
  | inventory hK heff =>
    obtain ⟨hck, -⟩ := heff.frame
    exact .inl (by rw [hck])
  | payment heff =>
    exact .inl (heff.invariant (I := fun d => d.checkout.attempts = db.checkout.attempts) rfl
      fun a b ha he => (PaymentEffect.attempts he).1.trans ha)
  | decided hnow hi =>
    obtain ⟨rfl, -, -⟩ := PaymentStore.insertDecision_ok hi
    exact .inl rfl
  | elapse => exact .inl rfl

/-- The invariant of the machine, with what its attempts hold. -/
structure AttemptInv (s : State) : Prop extends MachineInv s where
  recorded : ∀ x ∈ s.db.checkout.attempts, Recorded x

theorem AttemptInv.initial {s : State} (h : Initial s) : AttemptInv s :=
  ⟨MachineInv.initial h, by simp [h.attempts]⟩

theorem AttemptInv.step {s u : State} {a : Action} (h : AttemptInv s)
    (hs : Checkout.step s a = some u) : AttemptInv u := by
  refine ⟨h.toMachineInv.step hs, ?_⟩
  rcases step_some h.keys hs with ⟨hc, -⟩ | ⟨-, rfl⟩
  · rcases hc.attempts with heq | ⟨tx, r, -, hr⟩
    · rw [heq]
      exact h.recorded
    · exact (Tx.run_changes hr).invariant
        (I := fun d => ∀ x ∈ d.checkout.attempts, Recorded x) h.recorded
        fun a b ha hc => hc.attemptWrite.recorded ha
  · exact h.recorded

theorem AttemptInv.reach {s₀ s : State} (h0 : Initial s₀)
    (h : Reach Checkout.step (fun _ _ => True) s₀ s) : AttemptInv s :=
  h.invariant (AttemptInv.initial h0) fun _ _ _ ht _ hs => ht.step hs

theorem isAttempt_iff {t : TenantId} {r : RequestId} {x : CheckoutAttempt} :
    isAttempt t r x = true ↔ attemptKey x = (t, r) := by
  simp [isAttempt, attemptKey]

/-- An attempt is found by its key. -/
theorem attemptOf_iff {db : Db} (hu : KeyUnique attemptKey db.checkout.attempts)
    {t : TenantId} {r : RequestId} {x : CheckoutAttempt} : attemptOf db t r = some x ↔
      x ∈ db.checkout.attempts ∧ attemptKey x = (t, r) := by
  constructor
  · intro hx
    obtain ⟨hmem, hkey⟩ := find?_some_spec hx
    exact ⟨hmem, isAttempt_iff.mp hkey⟩
  · rintro ⟨hmem, hkey⟩
    have hfind := hu.find?_eq_some hmem
    have hsel : isAttempt t r = fun y => decide (attemptKey y = attemptKey x) := by
      funext y
      rw [hkey, Bool.eq_iff_iff, isAttempt_iff, decide_eq_true_iff]
    rw [attemptOf, hsel, hfind]

/-- The reconciliation claim that settles the attempt `x` is current. -/
def SettledByClaim (db : Db) (a : Action) (x x' : CheckoutAttempt) : Prop :=
  ∃ job : PaymentReconciliationJob, lockCheckoutFence db job.fence = .ok () ∧
    isGeneration job.fence.generation x = true ∧
    ((∃ payload, a = .checkout (.completePaymentReconciliation job payload) ∧
        x'.status = .paid) ∨
      ∃ error, a = .checkout (.failPaymentReconciliation job error) ∧ x'.status = .failed)

theorem SettledBy.claimed {tx : Tx} {db db' : Db} {r : tx.Result} {x x' : CheckoutAttempt}
    (h : SettledBy tx x x') (hr : tx.run db = .ok (r, db')) :
    SettledByClaim db (.checkout tx) x x' := by
  obtain ⟨job, hgen, ⟨payload, rfl, hs⟩ | ⟨error, rfl, hs⟩⟩ := h
  · obtain ⟨⟨⟩, hlock, -⟩ := bind_ok hr
    exact ⟨job, hlock, hgen, .inl ⟨payload, rfl, hs⟩⟩
  · obtain ⟨⟨⟩, hlock, -⟩ := bind_ok hr
    exact ⟨job, hlock, hgen, .inr ⟨error, rfl, hs⟩⟩

/-- What a step makes of an attempt. -/
theorem AttemptInv.follows {s u : State} {a : Action} (h : AttemptInv s)
    (hs : Checkout.step s a = some u) {t : TenantId} {r : RequestId} {x : CheckoutAttempt}
    (hx : attemptOf s.db t r = some x) :
    ∃ x', attemptOf u.db t r = some x' ∧ (x.status = .paid ∨ x.status = .degraded → x' = x) ∧
      (x.status = .failed ∨ x.status = .pending → x' = x ∨ SettledByClaim s.db a x x') := by
  have hu := (h.step hs).fences.attempts
  obtain ⟨hmem, hkey⟩ := (attemptOf_iff h.fences.attempts).mp hx
  rcases step_some h.keys hs with ⟨hc, -⟩ | ⟨-, rfl⟩
  · rcases hc.attempts with heq | ⟨tx, res, rfl, hr⟩
    · exact ⟨x, (attemptOf_iff hu).mpr ⟨heq ▸ hmem, hkey⟩, fun _ => rfl, fun _ => .inl rfl⟩
    · obtain ⟨x', hx', hf⟩ := (Tx.run_changes hr).follows x hmem
      refine ⟨x', (attemptOf_iff hu).mpr ⟨hx', hf.key.trans hkey⟩, hf.closed, fun hw => ?_⟩
      exact (hf.waiting hw).imp_right fun hsettled => hsettled.claimed hr
  · exact ⟨x, hx, fun _ => rfl, fun _ => .inl rfl⟩

/-- A paid or degraded attempt is never written again. -/
theorem AttemptInv.absorbed {s u : State} (h : AttemptInv s)
    (hreach : Reach Checkout.step (fun _ _ => True) s u) {t : TenantId} {r : RequestId}
    {x : CheckoutAttempt} (hx : attemptOf s.db t r = some x)
    (hclosed : x.status = .paid ∨ x.status = .degraded) : attemptOf u.db t r = some x := by
  have hboth : AttemptInv u ∧ attemptOf u.db t r = some x := by
    refine hreach.invariant (I := fun v => AttemptInv v ∧ attemptOf v.db t r = some x)
      ⟨h, hx⟩ ?_
    rintro v a w ⟨hv, hvx⟩ - hstep
    obtain ⟨x', hx', hsame, -⟩ := hv.follows hstep hvx
    rw [hsame hclosed] at hx'
    exact ⟨hv.step hstep, hx'⟩
  exact hboth.2

/-! ## What a repeated request reads -/

/-- The answer of a claim is what the attempt of the request stores. -/
def Answers (db : Db) (tenantId : TenantId) (requestId : RequestId) :
    CheckoutAttemptClaim → Prop
  | .new _ | .inProgress => True
  | .replay payload => ∃ x, attemptOf db tenantId requestId = some x ∧
      (x.status = .paid ∨ x.status = .degraded) ∧ x.responsePayload = some payload
  | .pending payload => ∃ x, attemptOf db tenantId requestId = some x ∧
      x.status = .pending ∧ x.responsePayload = some payload
  | .failed e => ∃ x code, attemptOf db tenantId requestId = some x ∧ x.status = .failed ∧
      x.errorStatus = some e.status.toI16 ∧ x.errorCode = some code ∧
      e.code = replayErrorCode code ∧ x.errorMessage = some e.message

/-- A stored error is read back as it is, up to `replay_error_code`. -/
theorem Recorded.replayedError {x : CheckoutAttempt} (h : Recorded x)
    (hs : x.status = .failed) : ∃ code, x.errorStatus = some (replayedError x).status.toI16 ∧
      x.errorCode = some code ∧ (Checkout.replayedError x).code = replayErrorCode code ∧
      x.errorMessage = some (Checkout.replayedError x).message := by
  obtain ⟨e, hstatus, hcode, hmessage⟩ := h.error hs
  refine ⟨e.code, ?_, hcode, ?_, ?_⟩
  · simp [Checkout.replayedError, hstatus]
  · simp [Checkout.replayedError, hcode]
  · simp [Checkout.replayedError, hmessage]

/-- The stale arm answers only for a paid order, and stores what it answers. -/
theorem claimStaleAttempt_answers {db db' : Db} {x : CheckoutAttempt}
    {claim : CheckoutAttemptClaim} (hx : x ∈ db.checkout.attempts) (hs : x.status = .started)
    (h : claimStaleAttempt x db = .ok (claim, db')) :
    (∃ token, claim = .new token) ∨ ∃ payload, claim = .replay payload ∧
      respond db.now .paid x.orderId payload x ∈ db'.checkout.attempts := by
  unfold claimStaleAttempt at h
  simp only at h
  split at h
  · rename_i o ho
    split at h
    · split at h
      · cases h
        refine .inr ⟨_, rfl, ?_⟩
        rw [ho]
        refine mem_updateWhere_of_pos hx ?_
        simp [isGeneration, hs, ho]
      · cases h
    · split at h
      · cases h
      · cases h
        exact .inl ⟨_, rfl⟩
  · cases h
    exact .inl ⟨_, rfl⟩

theorem claimCheckoutAttempt_answers {db db' : Db}
    (h : KeyUnique attemptKey db.checkout.attempts)
    (hrecorded : ∀ x ∈ db.checkout.attempts, Recorded x)
    (hu : KeyUnique attemptKey db'.checkout.attempts) {t : TenantId} {r : RequestId}
    {fingerprint : CheckoutInput} {claim : CheckoutAttemptClaim}
    (hr : claimCheckoutAttempt t r fingerprint db = .ok (claim, db')) :
    Answers db' t r claim := by
  unfold claimCheckoutAttempt at hr
  split at hr
  · cases hr
    trivial
  · rename_i x hx
    obtain ⟨hmem, hkey⟩ := (attemptOf_iff h).mp hx
    split at hr
    · cases hr
    · split at hr
      · rename_i hs
        split at hr
        · rcases claimStaleAttempt_answers hmem hs hr with ⟨token, rfl⟩ | ⟨payload, rfl, hrow⟩
          · trivial
          · exact ⟨_, (attemptOf_iff hu).mpr ⟨hrow, hkey⟩, .inl rfl, rfl⟩
        · cases hr
          trivial
      · rename_i hs
        split at hr
        · rename_i payload hp
          cases hr
          exact ⟨x, hx, hs, hp⟩
        · cases hr
      · rename_i hs
        split at hr
        · rename_i payload hp
          cases hr
          exact ⟨x, hx, .inl hs, hp⟩
        · cases hr
      · rename_i hs
        split at hr
        · rename_i payload hp
          cases hr
          exact ⟨x, hx, .inr hs, hp⟩
        · cases hr
      · rename_i hs
        cases hr
        obtain ⟨code, hrest⟩ := (hrecorded x hmem).replayedError hs
        exact ⟨x, code, hx, hs, hrest⟩

/-- A request id that was used for another input is refused. -/
theorem claimCheckoutAttempt_conflict {db : Db} {t : TenantId} {r : RequestId}
    {fingerprint : CheckoutInput} {x : CheckoutAttempt} (hx : attemptOf db t r = some x)
    (hne : x.requestFingerprint ≠ fingerprint) :
    Action.commit db (.checkout (.claimCheckoutAttempt t r fingerprint)) = none := by
  have hfind : db.checkout.attempts.find? (isAttempt t r) = some x := hx
  simp [Action.commit, Tx.run, claimCheckoutAttempt, hfind, hne, committedDb]

/-- **The attempt machine.** In every reachable state every attempt keeps the
CHECKs of its table. A paid or degraded attempt stays as it is along every
run. A step changes a failed or pending one only as the end of a
reconciliation job whose claim is current, into a paid or a failed one. A
claim with another fingerprint changes nothing. A claim that returns a
response or an error returns what the attempt stores, the error code through
`replay_error_code`. And a handler never asks for a response in a status that
the CHECK would refuse: it keeps to its contract. -/
theorem attempt_machine {s₀ s : State} (h0 : Initial s₀)
    (hreach : Reach step (fun _ _ => True) s₀ s) :
    (∀ x ∈ s.db.checkout.attempts, x.outcomeChecks = true) ∧
    (∀ u t r x, Reach step (fun _ _ => True) s u → attemptOf s.db t r = some x →
      x.status = .paid ∨ x.status = .degraded → attemptOf u.db t r = some x) ∧
    (∀ a u t r x, step s a = some u → attemptOf s.db t r = some x →
      x.status = .failed ∨ x.status = .pending →
      ∃ x', attemptOf u.db t r = some x' ∧ (x' = x ∨ SettledByClaim s.db a x x')) ∧
    (∀ u t r fingerprint x,
      step s (.checkout (.claimCheckoutAttempt t r fingerprint)) = some u →
      attemptOf s.db t r = some x → x.requestFingerprint ≠ fingerprint → u = s) ∧
    (∀ t r fingerprint claim db',
      claimCheckoutAttempt t r fingerprint s.db = .ok (claim, db') → Answers db' t r claim) ∧
    ∀ input K, Sound contract (checkoutInner input) K := by
  have hinv := AttemptInv.reach h0 hreach
  refine ⟨fun x hx => (hinv.recorded x hx).checks, ?_, ?_, ?_, ?_, fun _ _ => checkoutInner_sound⟩
  · intro u t r x hu hx hclosed
    exact hinv.absorbed hu hx hclosed
  · intro a u t r x hstep hx hwaiting
    obtain ⟨x', hx', -, hw⟩ := hinv.follows hstep hx
    exact ⟨x', hx', hw hwaiting⟩
  · intro u t r fingerprint x hstep hx hne
    have hfail := claimCheckoutAttempt_conflict hx hne
    have hnone : Tx.claim (.claimCheckoutAttempt t r fingerprint) = none := rfl
    simp only [step, Action.claim, hnone, Option.all_none, if_true, hfail,
      granted_of_failed hfail, Option.getD_none, List.nil_append, Option.some.injEq] at hstep
    exact hstep.symm
  · intro t r fingerprint claim db' hr
    have hrun : (Tx.claimCheckoutAttempt t r fingerprint).run s.db = .ok (claim, db') := hr
    have hu := hinv.fences.run hrun
    exact claimCheckoutAttempt_answers hinv.fences.attempts hinv.recorded hu.attempts hr

/-- The attempt of the sample request, failed. -/
def sampleFailed : State :=
  (run step sampleStart [sampleClaim, sampleZombie]).getD sampleStart

theorem attempt_machine_sample :
    (attemptOf sampleFailed.db 1 ⟨1, 1⟩).map (·.status) = some .failed ∧
    (attemptOf sampleFailed.db 1 ⟨1, 1⟩).map (·.outcomeChecks) = some true ∧
    Answers sampleFailed.db 1 ⟨1, 1⟩ (.failed ⟨503, .paymentTimeout, ""⟩) := by
  have hrun : run step sampleStart [sampleClaim, sampleZombie] = some sampleFailed := rfl
  have hmachine := attempt_machine ⟨rfl, rfl, rfl, rfl, rfl, rfl⟩ (reach_of_run hrun)
  refine ⟨rfl, ?_, hmachine.2.2.2.2.1 1 ⟨1, 1⟩ sampleInput _ _ rfl⟩
  exact congrArg some (hmachine.1 _ List.mem_cons_self)

end CommercePlayground.Checkout
