/-
CommercePlayground.System.TaskTheorems — the compensation tasks over a run.

A task is written by the handler that prepares it, by the workers that claim it and by the
reclaim that quarantines it. `TaskFollows` says what any of them makes of it, and `TaskInv`
what holds of the table at any time. From there `compensation_tasks_follow_protocol`: a
task is claimed at most `COMPENSATION_MAX_ATTEMPTS` times, a closed one stays closed, and a
claim that was lost is lost for good.
-/
import CommercePlayground.System.MoneyTheorems

namespace CommercePlayground.System

open Lib Checkout

/-! ## One write -/

/-- What a write makes of a task. The tokens below `n` were drawn before it. -/
structure TaskFollows (n : Nat) (t t' : CompensationTask) : Prop where
  same : SameTask t t'
  completed : t.status = .completed → t'.status = .completed
  superseded : t.status = .superseded → t'.status = .superseded
  failed : t.status = .failed → t'.status = .failed ∨ t'.status = .superseded
  attempts : t.attempts ≤ t'.attempts
  token : ∀ k, k < n → t'.claimToken = some k →
    t.claimToken = some k ∧ t'.attempts = t.attempts

theorem TaskFollows.refl (n : Nat) (t : CompensationTask) : TaskFollows n t t :=
  ⟨.refl t, id, id, .inl, le_rfl, fun _ _ h => ⟨h, rfl⟩⟩

theorem TaskFollows.trans {n m : Nat} {a b c : CompensationTask} (hn : n ≤ m)
    (h₁ : TaskFollows n a b) (h₂ : TaskFollows m b c) : TaskFollows n a c where
  same := ⟨h₂.same.id.trans h₁.same.id, h₂.same.tenantId.trans h₁.same.tenantId,
    h₂.same.orderId.trans h₁.same.orderId, h₂.same.taskKey.trans h₁.same.taskKey,
    h₂.same.kind.trans h₁.same.kind⟩
  completed := fun h => h₂.completed (h₁.completed h)
  superseded := fun h => h₂.superseded (h₁.superseded h)
  failed := fun h => (h₁.failed h).elim h₂.failed fun hs => .inr (h₂.superseded hs)
  attempts := h₁.attempts.trans h₂.attempts
  token := by
    intro k hk hc
    obtain ⟨hb, hbc⟩ := h₂.token k (hk.trans_le hn) hc
    obtain ⟨ha, hab⟩ := h₁.token k hk hb
    exact ⟨ha, hbc.trans hab⟩

/-- A row of the table; its claim token is below `n`. -/
structure TaskSound (n : Nat) (t : CompensationTask) : Prop where
  bounded : t.attempts ≤ compensationMaxAttempts
  claim : t.claimCheck = true
  prepared : t.status = .prepared → t.attempts = 0
  drawn : ∀ k, t.claimToken = some k → k < n

theorem TaskSound.mono {n m : Nat} {t : CompensationTask} (h : TaskSound n t) (hn : n ≤ m) :
    TaskSound m t :=
  ⟨h.bounded, h.claim, h.prepared, fun k hk => (h.drawn k hk).trans_le hn⟩

/-- A write that neither claims the task nor counts an attempt. -/
structure Settles (t t' : CompensationTask) : Prop where
  same : SameTask t t'
  attempts : t'.attempts = t.attempts
  claim : t'.claimToken = t.claimToken ∨ t'.claimToken = none
  claimCheck : t.claimCheck = true → t'.claimCheck = true
  completed : t.status = .completed → t'.status = .completed
  superseded : t.status = .superseded → t'.status = .superseded
  failed : t.status = .failed → t'.status = .failed ∨ t'.status = .superseded
  prepared : t'.status = .prepared → t.status = .prepared

theorem Settles.token {t t' : CompensationTask} (h : Settles t t') {k : Nat}
    (hk : t'.claimToken = some k) : t.claimToken = some k := by
  rcases h.claim with heq | hnone
  · exact heq ▸ hk
  · rw [hnone] at hk
    cases hk

theorem Settles.follows {n : Nat} {t t' : CompensationTask} (h : Settles t t') :
    TaskFollows n t t' :=
  ⟨h.same, h.completed, h.superseded, h.failed, h.attempts.ge,
    fun _ _ hk => ⟨h.token hk, h.attempts⟩⟩

theorem Settles.sound {n : Nat} {t t' : CompensationTask} (h : Settles t t')
    (hs : TaskSound n t) : TaskSound n t' where
  bounded := h.attempts ▸ hs.bounded
  claim := h.claimCheck hs.claim
  prepared := fun hp => h.attempts.trans (hs.prepared (h.prepared hp))
  drawn := fun k hk => hs.drawn k (h.token hk)

/-- A closed task has no claim. -/
theorem closed_claimCheck {t : CompensationTask} (hs : t.status ≠ .processing)
    (hc : t.claimToken = none) (he : t.claimExpiresAt = none) : t.claimCheck = true := by
  simp [CompensationTask.claimCheck, hs, hc, he]

theorem claimCheck_processing {t : CompensationTask} (h : t.claimCheck = true)
    (hs : t.status = .processing) : t.claimToken.isSome = true := by
  simp only [CompensationTask.claimCheck, hs, Bool.and_eq_true, beq_iff_eq, decide_true] at h
  exact h.1

/-- The moves of a task other than its claim. -/
theorem TaskMove.settles {tx : Tx} {db : Db} {t t' : CompensationTask} (h : TaskMove tx db t t')
    (hclaim : t.claimCheck = true) : Settles t t' := by
  have hsame := h.same
  cases h with
  | extend hs =>
    refine ⟨hsame, rfl, .inl rfl, fun _ => ?_, id, id, .inl, id⟩
    simp [CompensationTask.claimCheck, extendClaim, hs, claimCheck_processing hclaim hs]
  | requeue =>
    unfold requeuedTask at hsame ⊢
    split at hsame
    · rename_i hq
      rw [if_pos hq]
      exact ⟨hsame, rfl, .inl rfl, id, id, id, .inl, id⟩
    · rename_i hq
      rw [if_neg hq]
      exact ⟨hsame, rfl, .inl rfl, id, id, id, .inl, id⟩
  | activate hs =>
    refine ⟨hsame, rfl, .inl rfl, fun hc => ?_, ?_, ?_, ?_, fun hp => by cases hp⟩
    · simpa [CompensationTask.claimCheck, hs] using hc
    all_goals
      intro hst
      rw [hs] at hst
      cases hst
  | begin => exact ⟨hsame, rfl, .inl rfl, id, id, id, .inl, id⟩
  | complete => exact ⟨hsame, rfl, .inl rfl, id, id, id, .inl, id⟩
  | resolve htx hsel =>
    have hq : t.status = .queued := by
      simp only [isFencedTask, Bool.and_eq_true, decide_eq_true_eq] at hsel
      exact List.mem_singleton.mp hsel.2.2.2
    refine ⟨hsame, rfl, .inr rfl, fun _ => closed_claimCheck (fun hc => by cases hc) rfl rfl,
      fun _ => rfl, ?_, ?_, fun hp => by cases hp⟩
    all_goals
      intro hst
      rw [hq] at hst
      cases hst
  | finish htx hsel =>
    have hp := isHeldBy_processing hsel
    refine ⟨hsame, rfl, .inr rfl, fun _ => closed_claimCheck (fun hc => by cases hc) rfl rfl,
      fun _ => rfl, ?_, ?_, fun hp => by cases hp⟩
    all_goals
      intro hst
      rw [hp] at hst
      cases hst
  | bury hs =>
    refine ⟨hsame, rfl, .inr rfl, fun _ => closed_claimCheck (fun hc => by cases hc) rfl rfl,
      ?_, ?_, fun _ => .inl rfl, fun hp => by cases hp⟩
    all_goals
      intro hst
      rw [hs] at hst
      cases hst
  | reschedule htx hs =>
    refine ⟨hsame, rfl, .inr rfl, fun _ => closed_claimCheck (fun hc => by cases hc) rfl rfl,
      ?_, ?_, ?_, fun hp => by cases hp⟩
    all_goals
      intro hst
      rw [hs] at hst
      cases hst

/-- A reclaim quarantines the open tasks of the generation it ends. -/
theorem superseded_settles {now : Nat} {t : CompensationTask} (h : isOpenTask t = true) :
    Settles t (Checkout.superseded now t) := by
  refine ⟨⟨rfl, rfl, rfl, rfl, rfl⟩, rfl, .inr rfl,
    fun _ => closed_claimCheck (fun hc => by cases hc) rfl rfl, fun hc => ?_, fun _ => rfl,
    fun _ => .inr rfl, fun hp => by cases hp⟩
  simp [isOpenTask, hc] at h

/-! ## The table -/

/-- The primary key of a task. -/
def taskKeyOf (t : CompensationTask) : TenantId × TaskKey := (t.tenantId, t.taskKey)

/-- The table of tasks at any time. -/
structure TaskInv (db : Db) : Prop where
  keys : KeyUnique taskKeyOf db.checkout.tasks
  ids : KeyUnique (·.id) db.checkout.tasks
  below : ∀ t ∈ db.checkout.tasks, t.id < db.nextUuid
  rows : ∀ t ∈ db.checkout.tasks, TaskSound db.nextUuid t
  tokens : ∀ t ∈ db.checkout.tasks, ∀ t' ∈ db.checkout.tasks, ∀ k, t.claimToken = some k →
    t'.claimToken = some k → t.id = t'.id

/-- The table of tasks from one state to a later one. -/
structure TasksMoved (db db' : Db) : Prop where
  inv : TaskInv db'
  rows : Evolves (TaskFollows db.nextUuid) db.checkout.tasks db'.checkout.tasks
  next : db.nextUuid ≤ db'.nextUuid

theorem TasksMoved.refl {db : Db} (h : TaskInv db) : TasksMoved db db :=
  ⟨h, Evolves.refl (TaskFollows.refl _) _, le_rfl⟩

theorem TasksMoved.trans {a b c : Db} (h₁ : TasksMoved a b) (h₂ : TasksMoved b c) :
    TasksMoved a c := by
  refine ⟨h₂.inv, fun t ht => ?_, h₁.next.trans h₂.next⟩
  obtain ⟨t', ht', hf⟩ := h₁.rows t ht
  obtain ⟨t'', ht'', hf'⟩ := h₂.rows t' ht'
  exact ⟨t'', ht'', hf.trans h₁.next hf'⟩

/-- A write that leaves the tasks alone. -/
theorem TaskInv.frame {db db' : Db} (h : TaskInv db)
    (ht : db'.checkout.tasks = db.checkout.tasks) (hn : db.nextUuid ≤ db'.nextUuid) :
    TasksMoved db db' := by
  refine ⟨⟨ht ▸ h.keys, ht ▸ h.ids, ?_, ?_, ht ▸ h.tokens⟩, ?_, hn⟩
  · rw [ht]
    exact fun t hmem => (h.below t hmem).trans_le hn
  · rw [ht]
    exact fun t hmem => (h.rows t hmem).mono hn
  · rw [ht]
    exact Evolves.refl (TaskFollows.refl _) _

/-- A write that settles some tasks. -/
theorem TaskInv.settle {db db' : Db} {sel : CompensationTask → Bool}
    {f : CompensationTask → CompensationTask} (h : TaskInv db)
    (ht : db'.checkout.tasks = updateWhere sel f db.checkout.tasks)
    (hn : db.nextUuid ≤ db'.nextUuid)
    (hf : ∀ t ∈ db.checkout.tasks, sel t = true → Settles t (f t)) : TasksMoved db db' := by
  have hback : ∀ t' ∈ db'.checkout.tasks, ∃ t ∈ db.checkout.tasks, t'.id = t.id ∧
      TaskSound db.nextUuid t' ∧ ∀ k, t'.claimToken = some k → t.claimToken = some k := by
    rw [ht]
    intro t' ht'
    obtain ⟨t, hmem, rfl⟩ := mem_updateWhere.mp ht'
    refine ⟨t, hmem, ?_⟩
    split
    · rename_i hsel
      have hs := hf t hmem hsel
      exact ⟨hs.same.id, hs.sound (h.rows t hmem), fun k hk => hs.token hk⟩
    · exact ⟨rfl, h.rows t hmem, fun k hk => hk⟩
  refine ⟨⟨?_, ?_, ?_, ?_, ?_⟩, ?_, hn⟩
  · rw [ht]
    refine h.keys.updateWhere fun t hmem hsel => ?_
    simp only [taskKeyOf, (hf t hmem hsel).same.tenantId, (hf t hmem hsel).same.taskKey]
  · rw [ht]
    exact h.ids.updateWhere fun t hmem hsel => (hf t hmem hsel).same.id
  · intro t' ht'
    obtain ⟨t, hmem, hid, -⟩ := hback t' ht'
    exact hid ▸ (h.below t hmem).trans_le hn
  · intro t' ht'
    obtain ⟨t, -, -, hsound, -⟩ := hback t' ht'
    exact hsound.mono hn
  · intro t₁ ht₁ t₂ ht₂ k hk₁ hk₂
    obtain ⟨x₁, hx₁, hid₁, -, htoken₁⟩ := hback t₁ ht₁
    obtain ⟨x₂, hx₂, hid₂, -, htoken₂⟩ := hback t₂ ht₂
    rw [hid₁, hid₂]
    exact h.tokens x₁ hx₁ x₂ hx₂ k (htoken₁ k hk₁) (htoken₂ k hk₂)
  · rw [ht]
    exact Evolves.update (TaskFollows.refl _) fun t hmem hsel => (hf t hmem hsel).follows

/-- A prepared task, under a key no other task has. -/
theorem TaskInv.insert {db : Db} {order : PendingOrder} {fence : CheckoutFence}
    {base : TaskBaseKey} {kind : TaskKind} (h : TaskInv db)
    (hkey : ∀ t ∈ db.checkout.tasks,
      isTaskKey order.tenantId ⟨base, fence.generation.token⟩ t = false) :
    TasksMoved db (bumpUuid (setTasks db
      (db.checkout.tasks ++ [newTask db order fence base kind]))) := by
  refine ⟨⟨?_, ?_, ?_, ?_, ?_⟩, Evolves.insert (TaskFollows.refl _) _ _, Nat.le_succ _⟩
  · refine h.keys.append_singleton fun t hmem heq => ?_
    simp only [taskKeyOf, newTask, Prod.mk.injEq] at heq
    have hno := hkey t hmem
    simp [isTaskKey, heq] at hno
  · exact h.ids.append_singleton fun t hmem => Nat.ne_of_lt (h.below t hmem)
  · exact forall_append_singleton (fun t hmem => Nat.lt_succ_of_lt (h.below t hmem))
      (Nat.lt_succ_self _)
  · exact forall_append_singleton (fun t hmem => (h.rows t hmem).mono (Nat.le_succ _))
      ⟨Nat.zero_le _, rfl, fun _ => rfl, fun _ hk => by cases hk⟩
  · intro t₁ ht₁ t₂ ht₂ k hk₁ hk₂
    rcases List.mem_append.mp ht₁ with ht₁ | ht₁
    · rcases List.mem_append.mp ht₂ with ht₂ | ht₂
      · exact h.tokens t₁ ht₁ t₂ ht₂ k hk₁ hk₂
      · rw [List.mem_singleton.mp ht₂] at hk₂
        cases hk₂
    · rw [List.mem_singleton.mp ht₁] at hk₁
      cases hk₁

/-- A claim takes one task, which has an attempt left, under a fresh token. -/
theorem TaskInv.claim {db : Db} {pick : Nat} (h : TaskInv db) :
    TasksMoved db (bumpUuid (updateTasks db
      (fun t => decide (t.id = pick) && isClaimableTask db t)
      (claimedTask db.now db.nextUuid))) := by
  have hleft : ∀ t, (decide (t.id = pick) && isClaimableTask db t) = true →
      t.id = pick ∧ t.attempts < compensationMaxAttempts ∧ isOpenTask t = true ∧
        t.status ≠ .failed := by
    intro t hsel
    simp only [isClaimableTask, Bool.and_eq_true, Bool.or_eq_true, decide_eq_true_eq] at hsel
    refine ⟨hsel.1, hsel.2.1.1, ?_⟩
    rcases hsel.2.1.2 with ⟨hs | hs, -⟩ | ⟨hs, -⟩ <;> simp [isOpenTask, hs]
  have hback : ∀ t' ∈ updateWhere (fun t => decide (t.id = pick) && isClaimableTask db t)
      (claimedTask db.now db.nextUuid) db.checkout.tasks, ∃ t ∈ db.checkout.tasks,
      t'.id = t.id ∧ TaskSound (db.nextUuid + 1) t' ∧ ∀ k, t'.claimToken = some k →
        t.claimToken = some k ∨ k = db.nextUuid ∧ t.id = pick := by
    intro t' ht'
    obtain ⟨t, hmem, rfl⟩ := mem_updateWhere.mp ht'
    refine ⟨t, hmem, ?_⟩
    split
    · rename_i hsel
      obtain ⟨hid, hlt, -⟩ := hleft t hsel
      refine ⟨rfl, ⟨hlt, rfl, (fun hp => by cases hp), ?_⟩, ?_⟩
      · rintro k ⟨⟩
        exact Nat.lt_succ_self _
      · rintro k ⟨⟩
        exact .inr ⟨rfl, hid⟩
    · exact ⟨rfl, (h.rows t hmem).mono (Nat.le_succ _), fun k hk => .inl hk⟩
  refine ⟨⟨?_, ?_, ?_, ?_, ?_⟩, ?_, Nat.le_succ _⟩
  · exact h.keys.updateWhere fun _ _ _ => rfl
  · exact h.ids.updateWhere fun _ _ _ => rfl
  · intro t' ht'
    obtain ⟨t, hmem, hid, -⟩ := hback t' ht'
    exact hid ▸ Nat.lt_succ_of_lt (h.below t hmem)
  · intro t' ht'
    obtain ⟨t, -, -, hsound, -⟩ := hback t' ht'
    exact hsound
  · intro t₁ ht₁ t₂ ht₂ k hk₁ hk₂
    obtain ⟨x₁, hx₁, hid₁, -, htoken₁⟩ := hback t₁ ht₁
    obtain ⟨x₂, hx₂, hid₂, -, htoken₂⟩ := hback t₂ ht₂
    rw [hid₁, hid₂]
    rcases htoken₁ k hk₁ with h₁ | ⟨rfl, h₁⟩
    · rcases htoken₂ k hk₂ with h₂ | ⟨rfl, h₂⟩
      · exact h.tokens x₁ hx₁ x₂ hx₂ k h₁ h₂
      · exact absurd ((h.rows x₁ hx₁).drawn _ h₁) (Nat.lt_irrefl _)
    · rcases htoken₂ _ hk₂ with h₂ | ⟨-, h₂⟩
      · exact absurd ((h.rows x₂ hx₂).drawn _ h₂) (Nat.lt_irrefl _)
      · rw [h₁, h₂]
  · refine Evolves.update (TaskFollows.refl _) fun t _ hsel => ?_
    obtain ⟨-, -, hopen, hfailed⟩ := hleft t hsel
    simp only [isOpenTask, decide_eq_true_eq] at hopen
    refine ⟨⟨rfl, rfl, rfl, rfl, rfl⟩, fun hs => absurd hs hopen.1,
      fun hs => absurd hs hopen.2, fun hs => absurd hs hfailed, Nat.le_succ _, ?_⟩
    rintro k hk ⟨⟩
    exact absurd hk (Nat.lt_irrefl _)

/-! ## Steps -/

/-- **One write of a transaction.** -/
theorem Change.tasksMoved {tx : Tx} {db db' : Db} (h : Change tx db db') (hinv : TaskInv db) :
    TasksMoved db db' := by
  cases h with
  | task hkey => exact hinv.insert hkey
  | tasks hmove =>
    exact hinv.settle rfl le_rfl fun t ht hsel =>
      TaskMove.settles (hmove t ht hsel) (hinv.rows t ht).claim
  | claimTask => exact hinv.claim
  | reclaim =>
    refine hinv.settle rfl (Nat.le_succ _) fun t _ hsel => superseded_settles ?_
    rw [Bool.and_eq_true] at hsel
    exact hsel.2
  | cart =>
    unfold ensureCart
    split <;> exact hinv.frame rfl le_rfl
  | pay =>
    unfold insertPaidEvent
    split <;> exact hinv.frame rfl le_rfl
  | redeem htx hr =>
    obtain ⟨t, rfl⟩ := redeemPromotion_frame hr
    exact hinv.frame rfl le_rfl
  | openAttempt | uuid | order | claimReconciliation => exact hinv.frame rfl (Nat.le_succ _)
  | attempts | cancel | checkOut | exposure | analytics | reconciliation | reconciliations =>
    exact hinv.frame rfl le_rfl

/-- A step of the system. -/
theorem Moved.tasksMoved {db db' : Db} (hm : Moved db db') (h : TaskInv db) :
    TasksMoved db db' := by
  rcases hm with rfl | ⟨a, -, hc⟩
  · exact .refl h
  · cases hc with
    | checkout hr =>
      refine (Tx.run_changes hr).invariant (I := TasksMoved db) (.refl h) fun x y hx hstep => ?_
      exact hx.trans (Change.tasksMoved hstep hx.inv)
    | inventory hK heff =>
      obtain ⟨hck, -, -, hnext⟩ := heff.frame
      exact h.frame (by rw [hck]) hnext.ge
    | payment heff =>
      refine heff.invariant (I := TasksMoved db) (.refl h) fun x y hx hstep => ?_
      obtain ⟨hck, -, hnext⟩ := PaymentEffect.frame hstep
      exact hx.trans (hx.inv.frame (by rw [hck]) hnext.2.ge)
    | decided hnow hi =>
      obtain ⟨rfl, -, -⟩ := PaymentStore.insertDecision_ok hi
      exact h.frame rfl le_rfl
    | elapse => exact h.frame rfl le_rfl

/-! ## Runs -/

theorem TaskInv.initial {s : State} (h : Initial s) : TaskInv s.db := by
  refine ⟨?_, ?_, ?_, ?_, ?_⟩ <;> rw [h.tasks]
  · exact KeyUnique.nil _
  · exact KeyUnique.nil _
  all_goals exact fun _ ht => absurd ht List.not_mem_nil

/-- Tasks from one state of a run to a later one. -/
theorem tasksMoved_reach {s u : State} {ok : State → Action → Prop} (hs : FinalInv s)
    (h : TaskInv s.db) (hr : Reach System.step ok s u) : TasksMoved s.db u.db :=
  (hr.invariant (I := fun u => FinalInv u ∧ TasksMoved s.db u.db) ⟨hs, .refl h⟩
    fun t a v ht _ hstep => by
      obtain ⟨-, hm⟩ := ht.1.sys.step hstep
      exact ⟨(ht.1.step hstep).1, ht.2.trans (hm.tasksMoved ht.2.inv)⟩).2

/-- **The compensation tasks follow their protocol.** However handlers, reclaims and
workers interleave: a tenant has one task under a key; a task is claimed at most
`COMPENSATION_MAX_ATTEMPTS` times, has a claim exactly while it is processed, and no two
tasks share one. From then on a completed or superseded task stays so, a dead-lettered one
may only be superseded, what a task is about never changes, and a claim token that a task
does not carry, or no longer, never comes to it again. -/
theorem compensation_tasks_follow_protocol {s₀ s : State} (h0 : Initial s₀)
    (h : Reach System.step (fun _ _ => True) s₀ s) :
    KeyUnique taskKeyOf s.db.checkout.tasks ∧
    (∀ t ∈ s.db.checkout.tasks, TaskSound s.db.nextUuid t) ∧
    (∀ t ∈ s.db.checkout.tasks, ∀ t' ∈ s.db.checkout.tasks, ∀ k, t.claimToken = some k →
      t'.claimToken = some k → t = t') ∧
    ∀ u, Reach System.step (fun _ _ => True) s u → ∀ t ∈ s.db.checkout.tasks,
      ∃ t' ∈ u.db.checkout.tasks, TaskFollows s.db.nextUuid t t' := by
  have hinv := (tasksMoved_reach (.initial h0) (.initial h0) h).inv
  refine ⟨hinv.keys, hinv.rows, fun t ht t' ht' k hk hk' => ?_, fun u hu => ?_⟩
  · exact hinv.ids.eq_of_mem ht ht' (hinv.tokens t ht t' ht' k hk hk')
  · exact (tasksMoved_reach (FinalInv.reach h0 h) hinv hu).rows

/-- The two tasks of the compensated checkout. -/
theorem compensation_tasks_follow_protocol_sample :
    compensatedShop.db.checkout.tasks.map (·.status) = [.completed, .completed] ∧
      KeyUnique taskKeyOf compensatedShop.db.checkout.tasks ∧
      ∀ u, Reach System.step (fun _ _ => True) compensatedShop u →
        ∀ t ∈ compensatedShop.db.checkout.tasks, ∃ t' ∈ u.db.checkout.tasks,
          t'.taskKey = t.taskKey ∧ t'.status = .completed := by
  have hdone : compensatedShop.db.checkout.tasks.map (·.status) = [.completed, .completed] := by
    decide
  obtain ⟨hkeys, -, -, hlater⟩ :=
    compensation_tasks_follow_protocol sampleShop_initial compensatedShop_reached
  refine ⟨hdone, hkeys, fun u hu t ht => ?_⟩
  obtain ⟨t', ht', hf⟩ := hlater u hu t ht
  have hstatus : t.status ∈ [TaskStatus.completed, TaskStatus.completed] :=
    hdone ▸ List.mem_map_of_mem ht
  exact ⟨t', ht', hf.same.taskKey, hf.completed (by simpa using hstatus)⟩

end CommercePlayground.System
