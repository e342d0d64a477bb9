/-
CommercePlayground.Notifications.StoreTheorems — what the statements of the
notifications service do to its two tables.

`deliveryStep_write` says once what a step can do (`Write`): seven cases, of which
four move deliveries and three write the log of attempts. `DbInv` is what holds of
the tables in every run, workers that stop between two statements included: the
log has one row for each attempt that was claimed, and the row of the last attempt
shows how the delivery stands, unless the delivery was given up and the log is
behind.
-/
import CommercePlayground.Lib.Transition
import CommercePlayground.Notifications.Store

namespace CommercePlayground.Notifications

open Lib

/-! ## Selections -/

theorem isClaimable_iff {now : Nat} {d : Delivery} : isClaimable now d = true ↔
    d.attempts < maxAttempts ∧
      ((d.status = .accepted ∨ d.status = .queued) ∧ d.nextAttemptAt ≤ now ∨
        d.status = .processing ∧ leaseExpired now d = true) := by
  simp only [isClaimable, Bool.and_eq_true, Bool.or_eq_true, decide_eq_true_eq]

theorem isExhausted_iff {now : Nat} {d : Delivery} : isExhausted now d = true ↔
    maxAttempts ≤ d.attempts ∧ ((d.status = .accepted ∨ d.status = .queued) ∨
      d.status = .processing ∧ leaseExpired now d = true) := by
  simp only [isExhausted, Bool.and_eq_true, Bool.or_eq_true, decide_eq_true_eq]

theorem isLeased_iff {job : DeliveryJob} {d : Delivery} : isLeased job d = true ↔
    d.id = job.id ∧ d.tenantId = job.tenantId ∧ d.status = .processing ∧
      d.leaseToken = some job.leaseToken := by
  simp only [isLeased, decide_eq_true_eq]

theorem isEvent_iff {tenantId : TenantId} {eventKey : EventKey} {d : Delivery} :
    isEvent tenantId eventKey d = true ↔ d.tenantId = tenantId ∧ d.eventKey = eventKey := by
  simp only [isEvent, decide_eq_true_eq]

theorem candidate_mem {locked : DeliveryId → Bool} {s : Store} {d : Delivery}
    (h : candidate locked s = some d) : d ∈ s.deliveries ∧ isClaimable s.now d = true := by
  have hmem := List.argmin_mem h
  rw [List.mem_filter, Bool.and_eq_true] at hmem
  exact ⟨hmem.1, hmem.2.1⟩

/-! ## What a step does to the tables -/

/-- How a worker ends an attempt: what becomes of the delivery, and the outcome that
is logged. -/
inductive Ending (now : Nat) (job : DeliveryJob) : (Delivery → Delivery) → Outcome → Prop where
  | delivered : Ending now job (delivered now) .delivered
  | deadLettered (error : String) : Ending now job (deadLettered now error) .deadLettered
  | requeued (error : String) (h : job.attempt < maxAttempts) :
      Ending now job (requeued now (backoff job.attempt) error) .retry

/-- The deliveries, the log and the counters after a step. -/
inductive Write (s : State) (a : Action) : List Delivery → List Attempt → Nat → Nat → Prop where
  | same : Write s a s.db.deliveries s.db.attempts s.db.nextId s.db.nextToken
  | touch (tenantId : TenantId) (eventKey : EventKey) :
      Write s a (updateWhere (isEvent tenantId eventKey) (touched s.db.now) s.db.deliveries)
        s.db.attempts s.db.nextId s.db.nextToken
  | insert (tenantId : TenantId) (eventKey : EventKey) (request : NotificationRequest)
      (hnew : ∀ d ∈ s.db.deliveries, isEvent tenantId eventKey d = false) :
      Write s a (s.db.deliveries ++ [newDelivery s.db tenantId eventKey request]) s.db.attempts
        (s.db.nextId + 1) s.db.nextToken
  | claim (d : Delivery) (hd : d ∈ s.db.deliveries) (hc : isClaimable s.db.now d = true) :
      Write s a
        (updateWhere (fun x => decide (x.id = d.id)) (claimed s.db.now s.db.nextToken)
          s.db.deliveries)
        (upsertAttempt (startedAttempt s.db.now (jobOf s.db.nextToken d)) (restarted s.db.now)
          s.db.attempts)
        s.db.nextId (s.db.nextToken + 1)
  | exhaust (fault : Fault) (ha : a = .reclaim fault) (hfault : fault ≠ .before) :
      Write s a (updateWhere (isExhausted s.db.now) (exhausted s.db.now) s.db.deliveries)
        s.db.attempts s.db.nextId s.db.nextToken
  | log (row : Unlogged) (rows : List Unlogged) (i : Nat) (fault : Fault) (ha : a = .log i fault)
      (hfault : fault ≠ .before) (hw : s.workers[i]? = some (.reclaiming (row :: rows))) :
      Write s a s.db.deliveries (recordExhausted row s.db).attempts s.db.nextId s.db.nextToken
  | finish (job : DeliveryJob) (f : Delivery → Delivery) (outcome : Outcome)
      (error : Option String) (hw : Worker.processing job ∈ s.workers)
      (hone : affected (isLeased job) s.db.deliveries = 1) (hend : Ending s.db.now job f outcome) :
      Write s a (updateWhere (isLeased job) f s.db.deliveries)
        (updateWhere (isJobAttempt job) (endedAttempt s.db.now outcome error) s.db.attempts)
        s.db.nextId s.db.nextToken

/-- A store is written as `Write` says. -/
def Writes (s : State) (a : Action) (db : Store) : Prop :=
  Write s a db.deliveries db.attempts db.nextId db.nextToken

theorem recordDelivery_writes (s : State) (a : Action) (carrier : Except String Unit)
    (request : NotificationRequest) (eventKey : EventKey) :
    Writes s a (recordDelivery carrier request eventKey s.db).2 := by
  unfold recordDelivery
  split
  · exact .same
  · exact .same
  · rename_i tenantId htenant
    split
    · exact .touch tenantId eventKey
    · rename_i hnone
      split
      · exact .insert tenantId eventKey request fun d hd => by
          simpa using List.find?_eq_none.mp hnone d hd
      · exact .same

theorem claimNext_writes (s : State) (a : Action) (locked : DeliveryId → Bool) :
    Writes s a (claimNext locked s.db).2 := by
  unfold claimNext
  split
  · exact .same
  · rename_i d hd
    obtain ⟨hmem, hc⟩ := candidate_mem hd
    exact .claim d hmem hc

theorem finishAttempt_writes {s : State} {a : Action} {job : DeliveryJob} {f : Delivery → Delivery}
    {outcome : Outcome} {error : Option String} {lost : String} {db : Store}
    (hw : Worker.processing job ∈ s.workers) (hend : Ending s.db.now job f outcome)
    (h : finishAttempt job f outcome error lost s.db = .ok db) : Writes s a db := by
  unfold finishAttempt at h
  split at h
  · rename_i hone
    cases h
    exact .finish job f outcome error hw hone hend
  · cases h

theorem report_writes {s : State} {a : Action} {job : DeliveryJob} {how : Report} {db : Store}
    (hw : Worker.processing job ∈ s.workers) (h : report job s.db how = .ok db) :
    Writes s a db := by
  cases how with
  | delivered => exact finishAttempt_writes hw .delivered h
  | failed error =>
    simp only [report, markFailedOrDeadLetter] at h
    split at h
    · exact finishAttempt_writes hw (.deadLettered _) h
    · rename_i hlast
      exact finishAttempt_writes hw (.requeued _ (Nat.lt_of_not_le hlast)) h
  | invalid error => exact finishAttempt_writes hw (.deadLettered _) h

theorem underFault_writes {s : State} {a : Action} {fault : Fault} {db : Store}
    (h : fault ≠ .before → Writes s a db) : Writes s a (underFault fault s.db db) := by
  cases fault with
  | before => exact .same
  | none => exact h (by decide)
  | after => exact h (by decide)

theorem deliveryStep_writes {s t : State} {a : Action} (h : deliveryStep s a = some t) :
    Writes s a t.db := by
  cases a with
  | record carrier request eventKey fault =>
    cases h
    exact underFault_writes fun _ => recordDelivery_writes s _ carrier request eventKey
  | claim locked fault =>
    cases h
    exact underFault_writes fun _ => claimNext_writes s _ locked
  | reclaim fault =>
    cases h
    exact underFault_writes fun hfault => .exhaust fault rfl hfault
  | log i fault =>
    simp only [deliveryStep] at h
    split at h
    · rename_i row rows hget
      cases h
      exact underFault_writes fun hfault => .log row rows i fault rfl hfault hget
    · cases h
  | report i how fault =>
    simp only [deliveryStep] at h
    split at h
    · rename_i job hget
      cases h
      split
      · exact .same
      · rename_i db hdb
        exact underFault_writes fun _ => report_writes (List.mem_of_getElem? hget) hdb
    · cases h
  | stop i =>
    cases h
    exact .same
  | environment elapsed orders =>
    cases h
    exact .same

/-! ## Deliveries -/

/-- A delivery: its attempts are within the limit, it has a lease exactly while it is
processing, and the checks on its times hold. -/
structure RowOk (nextId nextToken : Nat) (d : Delivery) : Prop where
  id : d.id < nextId
  bounded : d.attempts ≤ maxAttempts
  status : d.status = .queued ∨ d.status = .processing ∨ d.status = .delivered ∨
    d.status = .deadLettered
  queued : d.status = .queued → d.attempts < maxAttempts
  started : d.status ≠ .queued → 1 ≤ d.attempts
  token : d.leaseToken.isSome = true ↔ d.status = .processing
  lease : d.leaseUntil.isSome = true ↔ d.status = .processing
  issued : ∀ n, d.leaseToken = some n → n < nextToken
  delivered : d.status = .delivered → d.deliveredAt.isSome = true
  deadLettered : d.status = .deadLettered → d.deadLetteredAt.isSome = true

theorem RowOk.mono {i j n m : Nat} {d : Delivery} (h : RowOk i n d) (hi : i ≤ j) (hm : n ≤ m) :
    RowOk j m d :=
  { h with
    id := Nat.lt_of_lt_of_le h.id hi
    issued := fun k hk => Nat.lt_of_lt_of_le (h.issued k hk) hm }

/-- What can happen to a delivery that is there. -/
inductive Move (s : Store) (next : Nat) : Delivery → Delivery → Prop where
  | keep {d : Delivery} : Move s next d d
  | touch {d : Delivery} : Move s next d (touched s.now d)
  | claim {d : Delivery} (h : isClaimable s.now d = true) (hnext : s.nextToken < next) :
      Move s next d (claimed s.now s.nextToken d)
  | exhaust {d : Delivery} (h : isExhausted s.now d = true) : Move s next d (exhausted s.now d)
  | finish {d : Delivery} {job : DeliveryJob} {f : Delivery → Delivery} {outcome : Outcome}
      (h : isLeased job d = true) (hjob : d.attempts = job.attempt)
      (hend : Ending s.now job f outcome) : Move s next d (f d)

theorem Ending.same {now : Nat} {job : DeliveryJob} {f : Delivery → Delivery} {outcome : Outcome}
    (h : Ending now job f outcome) (d : Delivery) : (f d).id = d.id ∧
      (f d).tenantId = d.tenantId ∧ (f d).eventKey = d.eventKey ∧ (f d).attempts = d.attempts ∧
      (f d).leaseToken = none := by
  cases h <;> exact ⟨rfl, rfl, rfl, rfl, rfl⟩

section
variable {s : Store} {next : Nat} {d d' : Delivery}

theorem Move.same (h : Move s next d d') : d'.id = d.id ∧ d'.tenantId = d.tenantId ∧
    d'.eventKey = d.eventKey := by
  cases h with
  | finish _ _ hend => exact ⟨(hend.same d).1, (hend.same d).2.1, (hend.same d).2.2.1⟩
  | _ => exact ⟨rfl, rfl, rfl⟩

theorem Move.attempts (h : Move s next d d') : d.attempts ≤ d'.attempts := by
  cases h with
  | claim => exact Nat.le_succ _
  | finish _ _ hend => exact (hend.same d).2.2.2.1.ge
  | _ => exact le_rfl

theorem RowOk.move {i : Nat} (h : RowOk i s.nextToken d) (hm : Move s next d d')
    (hn : s.nextToken ≤ next) : RowOk i next d' := by
  cases hm with
  | keep => exact h.mono le_rfl hn
  | touch =>
    have h' := h.mono le_rfl hn
    exact ⟨h'.id, h'.bounded, h'.status, h'.queued, h'.started, h'.token, h'.lease, h'.issued,
      h'.delivered, h'.deadLettered⟩
  | claim hc hnext =>
    refine ⟨h.id, (isClaimable_iff.mp hc).1, by simp [claimed], by simp [claimed],
      by simp [claimed], by simp [claimed], by simp [claimed], fun k hk => ?_, by simp [claimed],
      by simp [claimed]⟩
    cases hk
    exact hnext
  | exhaust hex =>
    have hmax : 1 ≤ d.attempts :=
      Nat.le_trans (by decide) (isExhausted_iff.mp hex).1
    exact ⟨h.id, h.bounded, by simp [exhausted], by simp [exhausted], fun _ => hmax,
      by simp [exhausted], by simp [exhausted], by simp [exhausted], by simp [exhausted],
      by simp [exhausted]⟩
  | finish hl hjob hend =>
    have hpos : 1 ≤ d.attempts := h.started (by simp [(isLeased_iff.mp hl).2.2.1])
    cases hend with
    | delivered =>
      exact ⟨h.id, h.bounded, by simp [Notifications.delivered], by simp [Notifications.delivered],
        fun _ => hpos, by simp [Notifications.delivered], by simp [Notifications.delivered],
        by simp [Notifications.delivered], by simp [Notifications.delivered],
        by simp [Notifications.delivered]⟩
    | deadLettered error =>
      exact ⟨h.id, h.bounded, by simp [Notifications.deadLettered],
        by simp [Notifications.deadLettered], fun _ => hpos, by simp [Notifications.deadLettered],
        by simp [Notifications.deadLettered], by simp [Notifications.deadLettered],
        by simp [Notifications.deadLettered], by simp [Notifications.deadLettered]⟩
    | requeued error hlt =>
      rw [← hjob] at hlt
      exact ⟨h.id, h.bounded, by simp [requeued], fun _ => hlt, fun _ => hpos,
        by simp [requeued], by simp [requeued], by simp [requeued], by simp [requeued],
        by simp [requeued]⟩

/-- A finished delivery is only touched. -/
theorem Move.finished (h : Move s next d d')
    (hst : d.status = .delivered ∨ d.status = .deadLettered) :
    d' = { d with updatedAt := d'.updatedAt } := by
  cases h with
  | keep => rfl
  | touch => rfl
  | claim hc =>
    have := (isClaimable_iff.mp hc).2
    rcases hst with hst | hst <;> simp [hst] at this
  | exhaust hex =>
    have := (isExhausted_iff.mp hex).2
    rcases hst with hst | hst <;> simp [hst] at this
  | finish hl =>
    have := (isLeased_iff.mp hl).2.2.1
    rcases hst with hst | hst <;> simp [hst] at this

end

/-! ## The log of attempts -/

/-- What the log shows for the last attempt of a delivery. -/
def outcomeFor : Status → Outcome
  | .delivered => .delivered
  | .deadLettered => .deadLettered
  | .processing => .processing
  | .queued => .retry
  | .accepted => .retry
  | .failed => .retry

/-- A log row of a delivery. It is behind if the delivery was given up and the row was
not. -/
structure LogRow (d : Delivery) (l : Attempt) : Prop where
  tenant : l.tenantId = d.tenantId
  positive : 1 ≤ l.attempt
  within : l.attempt ≤ d.attempts
  earlier : l.attempt < d.attempts → l.outcome = .processing ∨ l.outcome = .retry
  last : l.attempt = d.attempts → l.outcome = outcomeFor d.status ∨
    d.status = .deadLettered ∧ l.outcome = .processing

/-- The key of a log row. -/
def logKey (l : Attempt) : DeliveryId × Nat := (l.deliveryId, l.attempt)

structure LogInv (ds : List Delivery) (log : List Attempt) : Prop where
  keys : KeyUnique logKey log
  rows : ∀ l ∈ log, ∀ d ∈ ds, d.id = l.deliveryId → LogRow d l
  complete : ∀ d ∈ ds, ∀ n, 1 ≤ n → n ≤ d.attempts →
    ∃ l ∈ log, l.deliveryId = d.id ∧ l.attempt = n

theorem isAttempt_iff {id : DeliveryId} {n : Nat} {l : Attempt} :
    isAttempt id n l = true ↔ l.deliveryId = id ∧ l.attempt = n := by
  simp only [isAttempt, decide_eq_true_eq]

/-- Deliveries and log rows are rewritten, but for their keys and attempts. -/
theorem LogInv.update {ds : List Delivery} {log : List Attempt} (h : LogInv ds log)
    {p : Delivery → Bool} {q : Attempt → Bool} {f : Delivery → Delivery} {g : Attempt → Attempt}
    (hf : ∀ d, (f d).id = d.id ∧ (f d).attempts = d.attempts)
    (hg : ∀ l, (g l).deliveryId = l.deliveryId ∧ (g l).attempt = l.attempt)
    (hrow : ∀ d ∈ ds, ∀ l ∈ log, d.id = l.deliveryId → LogRow d l →
      LogRow (if p d then f d else d) (if q l then g l else l)) :
    LogInv (updateWhere p f ds) (updateWhere q g log) := by
  have hd : ∀ d, (if p d then f d else d).id = d.id ∧
      (if p d then f d else d).attempts = d.attempts := by
    intro d
    split
    · exact hf d
    · exact ⟨rfl, rfl⟩
  have hl : ∀ l, (if q l then g l else l).deliveryId = l.deliveryId ∧
      (if q l then g l else l).attempt = l.attempt := by
    intro l
    split
    · exact hg l
    · exact ⟨rfl, rfl⟩
  refine ⟨h.keys.updateWhere fun l _ _ => ?_, ?_, ?_⟩
  · exact Prod.ext (hg l).1 (hg l).2
  · intro l' hl' d' hd' hid
    obtain ⟨l, hlm, rfl⟩ := mem_updateWhere.mp hl'
    obtain ⟨d, hdm, rfl⟩ := mem_updateWhere.mp hd'
    rw [(hd d).1, (hl l).1] at hid
    exact hrow d hdm l hlm hid (h.rows l hlm d hdm hid)
  · intro d' hd' n hpos hn
    obtain ⟨d, hdm, rfl⟩ := mem_updateWhere.mp hd'
    rw [(hd d).2] at hn
    obtain ⟨l, hlm, hlid, hln⟩ := h.complete d hdm n hpos hn
    refine ⟨_, mem_updateWhere.mpr ⟨l, hlm, rfl⟩, ?_, ?_⟩
    · rw [(hl l).1, (hd d).1]
      exact hlid
    · rw [(hl l).2]
      exact hln

/-- A row that is there is rewritten. -/
theorem upsertAttempt_there {new : Attempt} {f : Attempt → Attempt} {log : List Attempt}
    (h : ∃ l ∈ log, l.deliveryId = new.deliveryId ∧ l.attempt = new.attempt) :
    upsertAttempt new f log = updateWhere (isAttempt new.deliveryId new.attempt) f log := by
  obtain ⟨l, hl, hkey⟩ := h
  exact if_pos (List.any_eq_true.mpr ⟨l, hl, isAttempt_iff.mpr hkey⟩)

theorem upsertAttempt_new {new : Attempt} {f : Attempt → Attempt} {log : List Attempt}
    (h : ∀ l ∈ log, l.deliveryId = new.deliveryId → l.attempt ≠ new.attempt) :
    upsertAttempt new f log = log ++ [new] := by
  refine if_neg fun hany => ?_
  obtain ⟨l, hl, hkey⟩ := List.any_eq_true.mp hany
  rw [isAttempt_iff] at hkey
  exact h l hl hkey.1 hkey.2

/-! ## The invariant of the tables -/

/-- The key of a delivery. -/
def eventOf (d : Delivery) : TenantId × EventKey := (d.tenantId, d.eventKey)

structure DbInv (s : Store) : Prop where
  ids : KeyUnique Delivery.id s.deliveries
  events : KeyUnique eventOf s.deliveries
  rows : ∀ d ∈ s.deliveries, RowOk s.nextId s.nextToken d
  fresh : ∀ l ∈ s.attempts, l.deliveryId < s.nextId
  log : LogInv s.deliveries s.attempts

/-- What a worker knows of the delivery it works on. -/
def WorkerOk (s : Store) : Worker → Prop
  | .processing job => job.leaseToken < s.nextToken ∧
      ∀ d ∈ s.deliveries, d.id = job.id → d.leaseToken = some job.leaseToken →
        d.attempts = job.attempt
  | .reclaiming rows => ∀ row ∈ rows, ∃ d ∈ s.deliveries, d.id = row.id ∧
      d.tenantId = row.tenantId ∧ d.attempts = row.attempt ∧ d.status = .deadLettered

structure Inv (s : State) : Prop where
  db : DbInv s.db
  workers : ∀ w ∈ s.workers, WorkerOk s.db w

section
variable {s : State} {a : Action} {ds : List Delivery} {log : List Attempt} {nextId nextToken : Nat}

/-- The delivery that a worker ends an attempt of. -/
theorem Inv.leased (h : Inv s) {job : DeliveryJob} (hw : Worker.processing job ∈ s.workers)
    {d : Delivery} (hd : d ∈ s.db.deliveries) (hl : isLeased job d = true) :
    d.attempts = job.attempt := by
  obtain ⟨hid, -, -, htoken⟩ := isLeased_iff.mp hl
  exact (h.workers _ hw).2 d hd hid htoken

/-- What becomes of a delivery in one step. -/
theorem Write.follows (h : Inv s) (hw : Write s a ds log nextId nextToken) {d : Delivery}
    (hd : d ∈ s.db.deliveries) : ∃ d' ∈ ds, Move s.db nextToken d d' := by
  have hupdate : ∀ (p : Delivery → Bool) (f : Delivery → Delivery),
      (p d = true → Move s.db nextToken d (f d)) →
        ∃ d' ∈ updateWhere p f s.db.deliveries, Move s.db nextToken d d' := by
    intro p f hf
    cases hp : p d with
    | false => exact ⟨d, mem_updateWhere_of_not hd hp, .keep⟩
    | true => exact ⟨f d, mem_updateWhere_of_pos hd hp, hf hp⟩
  cases hw with
  | same => exact ⟨d, hd, .keep⟩
  | touch => exact hupdate _ _ fun _ => .touch
  | insert => exact ⟨d, List.mem_append_left _ hd, .keep⟩
  | claim d₀ hd₀ hc =>
    refine hupdate _ _ fun hid => .claim ?_ (Nat.lt_succ_self _)
    rw [h.db.ids.eq_of_mem hd hd₀ (by simpa using hid)]
    exact hc
  | exhaust => exact hupdate _ _ fun hex => .exhaust hex
  | log => exact ⟨d, hd, .keep⟩
  | finish job f outcome error hworker hone hend =>
    exact hupdate _ _ fun hl => .finish hl (h.leased hworker hd hl) hend

/-- Where a delivery comes from. -/
theorem Write.origin (h : Inv s) (hw : Write s a ds log nextId nextToken) {d' : Delivery}
    (hd' : d' ∈ ds) : (∃ d ∈ s.db.deliveries, Move s.db nextToken d d') ∨
      ∃ tenantId eventKey request, d' = newDelivery s.db tenantId eventKey request ∧
        nextId = s.db.nextId + 1 := by
  have hupdate : ∀ (p : Delivery → Bool) (f : Delivery → Delivery),
      (∀ d ∈ s.db.deliveries, p d = true → Move s.db nextToken d (f d)) →
        d' ∈ updateWhere p f s.db.deliveries → ∃ d ∈ s.db.deliveries, Move s.db nextToken d d' := by
    intro p f hf hmem
    obtain ⟨d, hd, rfl⟩ := mem_updateWhere.mp hmem
    refine ⟨d, hd, ?_⟩
    split
    · rename_i hp
      exact hf d hd hp
    · exact .keep
  cases hw with
  | same => exact .inl ⟨d', hd', .keep⟩
  | touch => exact .inl (hupdate _ _ (fun _ _ _ => .touch) hd')
  | insert tenantId eventKey request =>
    rcases List.mem_append.mp hd' with hd | hd
    · exact .inl ⟨d', hd, .keep⟩
    · exact .inr ⟨tenantId, eventKey, request, List.mem_singleton.mp hd, rfl⟩
  | claim d₀ hd₀ hc =>
    refine .inl (hupdate _ _ (fun d hd hid => .claim ?_ (Nat.lt_succ_self _)) hd')
    rw [h.db.ids.eq_of_mem hd hd₀ (by simpa using hid)]
    exact hc
  | exhaust => exact .inl (hupdate _ _ (fun _ _ hex => .exhaust hex) hd')
  | log => exact .inl ⟨d', hd', .keep⟩
  | finish job f outcome error hworker hone hend =>
    exact .inl (hupdate _ _ (fun d hd hl => .finish hl (h.leased hworker hd hl) hend) hd')

theorem Write.counters (hw : Write s a ds log nextId nextToken) :
    s.db.nextId ≤ nextId ∧ s.db.nextToken ≤ nextToken := by
  cases hw with
  | insert => exact ⟨Nat.le_succ _, le_rfl⟩
  | claim => exact ⟨le_rfl, Nat.le_succ _⟩
  | _ => exact ⟨le_rfl, le_rfl⟩

/-- Ids and events stay unique. -/
theorem Write.unique (h : Inv s) (hw : Write s a ds log nextId nextToken) :
    KeyUnique Delivery.id ds ∧ KeyUnique eventOf ds := by
  have hupdate : ∀ (p : Delivery → Bool) (f : Delivery → Delivery),
      (∀ d, (f d).id = d.id ∧ (f d).tenantId = d.tenantId ∧ (f d).eventKey = d.eventKey) →
        KeyUnique Delivery.id (updateWhere p f s.db.deliveries) ∧
          KeyUnique eventOf (updateWhere p f s.db.deliveries) := by
    intro p f hf
    exact ⟨h.db.ids.updateWhere fun d _ _ => (hf d).1,
      h.db.events.updateWhere fun d _ _ => Prod.ext (hf d).2.1 (hf d).2.2⟩
  cases hw with
  | same => exact ⟨h.db.ids, h.db.events⟩
  | touch => exact hupdate _ _ fun _ => ⟨rfl, rfl, rfl⟩
  | insert tenantId eventKey request hnew =>
    refine ⟨h.db.ids.append_singleton fun d hd => (h.db.rows d hd).id.ne,
      h.db.events.append_singleton fun d hd heq => ?_⟩
    have hyes : isEvent tenantId eventKey d = true := isEvent_iff.mpr (Prod.mk.inj heq)
    rw [hnew d hd] at hyes
    cases hyes
  | claim => exact hupdate _ _ fun _ => ⟨rfl, rfl, rfl⟩
  | exhaust => exact hupdate _ _ fun _ => ⟨rfl, rfl, rfl⟩
  | log => exact ⟨h.db.ids, h.db.events⟩
  | finish job f outcome error hworker hone hend =>
    exact hupdate _ _ fun d => ⟨(hend.same d).1, (hend.same d).2.1, (hend.same d).2.2.1⟩

theorem newDelivery_ok (s : Store) (tenantId : TenantId) (eventKey : EventKey)
    (request : NotificationRequest) (nextToken : Nat) :
    RowOk (s.nextId + 1) nextToken (newDelivery s tenantId eventKey request) :=
  ⟨Nat.lt_succ_self _, Nat.zero_le _, by simp [newDelivery],
    fun _ => Nat.succ_pos 3, by simp [newDelivery], by simp [newDelivery], by simp [newDelivery], by simp [newDelivery],
    by simp [newDelivery], by simp [newDelivery]⟩

theorem Write.rowsOk (h : Inv s) (hw : Write s a ds log nextId nextToken) :
    ∀ d ∈ ds, RowOk nextId nextToken d := by
  intro d' hd'
  obtain ⟨hid, htoken⟩ := hw.counters
  rcases hw.origin h hd' with ⟨d, hd, hmove⟩ | ⟨tenantId, eventKey, request, rfl, hnext⟩
  · exact ((h.db.rows d hd).move hmove htoken).mono hid le_rfl
  · rw [hnext]
    exact newDelivery_ok _ _ _ _ _

/-! The log after each kind of step. -/

theorem LogInv.refl_update {ds : List Delivery} {log : List Attempt} (h : LogInv ds log)
    {p : Delivery → Bool} {f : Delivery → Delivery}
    (hf : ∀ d, (f d).id = d.id ∧ (f d).attempts = d.attempts)
    (hrow : ∀ d ∈ ds, ∀ l ∈ log, d.id = l.deliveryId → p d = true → LogRow d l →
      LogRow (f d) l) : LogInv (updateWhere p f ds) log := by
  have hnone : updateWhere (fun _ => false) id log = log := updateWhere_eq_self fun _ _ => rfl
  rw [← hnone]
  refine h.update hf (fun _ => ⟨rfl, rfl⟩) fun d hd l hl hid hok => ?_
  rw [if_neg Bool.false_ne_true]
  split
  · rename_i hp
    exact hrow d hd l hl hid hp hok
  · exact hok

theorem LogInv.touch (h : LogInv s.db.deliveries s.db.attempts) (tenantId : TenantId)
    (eventKey : EventKey) :
    LogInv (updateWhere (isEvent tenantId eventKey) (touched s.db.now) s.db.deliveries)
      s.db.attempts :=
  h.refl_update (fun _ => ⟨rfl, rfl⟩) fun _ _ _ _ _ _ hok =>
    ⟨hok.tenant, hok.positive, hok.within, hok.earlier, hok.last⟩

/-- The deliveries that are given up were processing, and so says the log. -/
theorem LogInv.exhaust (h : DbInv s.db) :
    LogInv (updateWhere (isExhausted s.db.now) (exhausted s.db.now) s.db.deliveries)
      s.db.attempts := by
  refine h.log.refl_update (fun _ => ⟨rfl, rfl⟩) fun d hd l hl hid hex hok => ?_
  have hrow := h.rows d hd
  obtain ⟨hmax, hst⟩ := isExhausted_iff.mp hex
  have hprocessing : d.status = .processing := by
    rcases hst with (hst | hst) | ⟨hst, -⟩
    · rcases hrow.status with h' | h' | h' | h' <;> rw [hst] at h' <;> cases h'
    · have := hrow.queued hst
      omega
    · exact hst
  refine ⟨hok.tenant, hok.positive, hok.within, hok.earlier, fun hlast => ?_⟩
  rcases hok.last hlast with hout | ⟨hdead, -⟩
  · rw [hprocessing] at hout
    exact .inr ⟨rfl, hout⟩
  · rw [hprocessing] at hdead
    cases hdead

/-- A claim starts the log of one more attempt. -/
theorem LogInv.claim (h : DbInv s.db) {d₀ : Delivery} (hd₀ : d₀ ∈ s.db.deliveries)
    (hc : isClaimable s.db.now d₀ = true) :
    LogInv
      (updateWhere (fun x => decide (x.id = d₀.id)) (claimed s.db.now s.db.nextToken)
        s.db.deliveries)
      (upsertAttempt (startedAttempt s.db.now (jobOf s.db.nextToken d₀)) (restarted s.db.now)
        s.db.attempts) := by
  have hnew : ∀ l ∈ s.db.attempts, l.deliveryId = d₀.id → l.attempt ≠ d₀.attempts + 1 := by
    intro l hl hid heq
    have := (h.log.rows l hl d₀ hd₀ hid.symm).within
    omega
  rw [upsertAttempt_new hnew]
  have hmem : ∀ d', d' ∈ updateWhere (fun x => decide (x.id = d₀.id))
      (claimed s.db.now s.db.nextToken) s.db.deliveries →
      d' = claimed s.db.now s.db.nextToken d₀ ∨ d' ∈ s.db.deliveries ∧ d'.id ≠ d₀.id := by
    intro d' hd'
    obtain ⟨d, hd, rfl⟩ := mem_updateWhere.mp hd'
    by_cases hid : d.id = d₀.id
    · left
      rw [h.ids.eq_of_mem hd hd₀ hid, if_pos (by simp)]
    · right
      rw [if_neg (by simpa using hid)]
      exact ⟨hd, hid⟩
  refine ⟨h.log.keys.append_singleton fun l hl heq => ?_, ?_, ?_⟩
  · exact hnew l hl (Prod.mk.inj heq).1 (Prod.mk.inj heq).2
  · intro l hl d' hd' hid
    rcases List.mem_append.mp hl with hl | hl
    · rcases hmem d' hd' with rfl | ⟨hd, -⟩
      · have hok := h.log.rows l hl d₀ hd₀ hid
        refine ⟨hok.tenant, hok.positive, hok.within.trans (Nat.le_succ _), fun _ => ?_,
          fun hlast => absurd hlast (hnew l hl hid.symm)⟩
        rcases hok.within.lt_or_eq with hlt | heq
        · exact hok.earlier hlt
        · -- the attempt before this one was abandoned or failed
          have hrow := h.rows d₀ hd₀
          obtain ⟨-, hst⟩ := isClaimable_iff.mp hc
          rcases hst with ⟨hst | hst, -⟩ | ⟨hst, -⟩
          · rcases hrow.status with h' | h' | h' | h' <;> rw [hst] at h' <;> cases h'
          · have := hok.last heq
            simp only [hst, outcomeFor, reduceCtorEq, false_and, or_false] at this
            exact .inr this
          · have := hok.last heq
            simp only [hst, outcomeFor, reduceCtorEq, false_and, or_false] at this
            exact .inl this
      · exact h.log.rows l hl d' hd hid
    · rw [List.mem_singleton.mp hl] at hid ⊢
      rcases hmem d' hd' with rfl | ⟨-, hne⟩
      · exact ⟨rfl, Nat.succ_pos _, le_rfl, fun hlt => absurd hlt (Nat.lt_irrefl _),
          fun _ => .inl rfl⟩
      · exact absurd hid hne
  · intro d' hd' n hpos hn
    rcases hmem d' hd' with rfl | ⟨hd, -⟩
    · rcases Nat.lt_or_ge d₀.attempts n with hlt | hle
      · refine ⟨_, List.mem_append_right _ (List.mem_singleton.mpr rfl), rfl, ?_⟩
        have hn' : n ≤ d₀.attempts + 1 := hn
        show d₀.attempts + 1 = n
        omega
      · obtain ⟨l, hl, hkey⟩ := h.log.complete d₀ hd₀ n hpos hle
        exact ⟨l, List.mem_append_left _ hl, hkey⟩
    · obtain ⟨l, hl, hkey⟩ := h.log.complete d' hd n hpos hn
      exact ⟨l, List.mem_append_left _ hl, hkey⟩

/-- The log catches up with a delivery that was given up. -/
theorem LogInv.record (h : DbInv s.db) {row : Unlogged}
    (hrow : ∃ d ∈ s.db.deliveries, d.id = row.id ∧ d.tenantId = row.tenantId ∧
      d.attempts = row.attempt ∧ d.status = .deadLettered) :
    LogInv s.db.deliveries (recordExhausted row s.db).attempts := by
  obtain ⟨d₀, hd₀, hid₀, htenant, hattempt, hdead⟩ := hrow
  have hpos : 1 ≤ d₀.attempts := (h.rows d₀ hd₀).started (by rw [hdead]; intro h'; cases h')
  obtain ⟨l₀, hl₀, hl₀id, hl₀n⟩ := h.log.complete d₀ hd₀ d₀.attempts hpos le_rfl
  have hthere : ∃ l ∈ s.db.attempts, l.deliveryId = (exhaustedAttempt s.db.now row).deliveryId ∧
      l.attempt = (exhaustedAttempt s.db.now row).attempt :=
    ⟨l₀, hl₀, hl₀id.trans hid₀, hl₀n.trans hattempt⟩
  unfold recordExhausted
  simp only
  rw [upsertAttempt_there hthere]
  have hnone : updateWhere (fun _ => false) id s.db.deliveries = s.db.deliveries :=
    updateWhere_eq_self fun _ _ => rfl
  rw [← hnone]
  refine h.log.update (fun _ => ⟨rfl, rfl⟩) (fun _ => ⟨rfl, rfl⟩) fun d hd l hl hid hok => ?_
  rw [if_neg Bool.false_ne_true]
  split
  · rename_i hkey
    obtain ⟨hlid, hln⟩ := isAttempt_iff.mp hkey
    have hsame : d = d₀ := h.ids.eq_of_mem hd hd₀ (hid.trans (hlid.trans hid₀.symm))
    have hlast : l.attempt = d.attempts := by
      rw [hsame, hattempt]
      exact hln
    refine ⟨hok.tenant, hok.positive, hok.within, fun hlt => ?_, fun _ => .inl ?_⟩
    · exact absurd hlast (Nat.ne_of_lt hlt)
    · rw [hsame, hdead]
      rfl
  · exact hok

/-- The log of an attempt that its worker ends. -/
theorem LogInv.finish (h : Inv s) {job : DeliveryJob} (hw : Worker.processing job ∈ s.workers)
    (hone : affected (isLeased job) s.db.deliveries = 1) {f : Delivery → Delivery}
    {outcome : Outcome} (hend : Ending s.db.now job f outcome) (error : Option String) :
    LogInv (updateWhere (isLeased job) f s.db.deliveries)
      (updateWhere (isJobAttempt job) (endedAttempt s.db.now outcome error) s.db.attempts) := by
  obtain ⟨d₀, hd₀, hl₀⟩ := exists_of_affected_ne_zero (by rw [hone]; exact Nat.one_ne_zero)
  have hout : ∀ d, outcomeFor (f d).status = outcome := by
    intro d
    cases hend <;> rfl
  refine h.db.log.update (fun d => ⟨(hend.same d).1, (hend.same d).2.2.2.1⟩)
    (fun _ => ⟨rfl, rfl⟩) fun d hd l hl hid hok => ?_
  by_cases hleased : isLeased job d = true
  · have hjob := h.leased hw hd hleased
    obtain ⟨hdid, hdtenant, -, -⟩ := isLeased_iff.mp hleased
    obtain ⟨-, htenant, -, hattempts, -⟩ := hend.same d
    rw [if_pos hleased]
    by_cases hlast : l.attempt = d.attempts
    · have hjobAttempt : isJobAttempt job l = true := by
        simp only [isJobAttempt, decide_eq_true_eq]
        exact ⟨hid.symm.trans hdid, hok.tenant.trans hdtenant, hlast.trans hjob⟩
      rw [if_pos hjobAttempt]
      refine ⟨hok.tenant.trans htenant.symm, hok.positive, hok.within.trans hattempts.ge,
        fun hlt => ?_, fun _ => .inl (hout d).symm⟩
      rw [hattempts] at hlt
      exact absurd hlast (Nat.ne_of_lt hlt)
    · have hother : ¬ isJobAttempt job l = true := by
        simp only [isJobAttempt, decide_eq_true_eq]
        exact fun hkey => hlast (hkey.2.2.trans hjob.symm)
      rw [if_neg hother]
      refine ⟨hok.tenant.trans htenant.symm, hok.positive, hok.within.trans hattempts.ge,
        fun hlt => ?_, fun heq => ?_⟩
      · rw [hattempts] at hlt
        exact hok.earlier hlt
      · rw [hattempts] at heq
        exact absurd heq hlast
  · -- the job is of another delivery
    have hother : ¬ isJobAttempt job l = true := by
      simp only [isJobAttempt, decide_eq_true_eq]
      rintro ⟨hlid, -, -⟩
      have hsame : d = d₀ :=
        h.db.ids.eq_of_mem hd hd₀ (hid.trans (hlid.trans (isLeased_iff.mp hl₀).1.symm))
      rw [hsame] at hleased
      exact hleased hl₀
    rw [if_neg hleased, if_neg hother]
    exact hok

theorem Write.log_inv (h : Inv s) (hw : Write s a ds log nextId nextToken) : LogInv ds log := by
  cases hw with
  | same => exact h.db.log
  | touch tenantId eventKey => exact h.db.log.touch tenantId eventKey
  | insert tenantId eventKey request =>
    refine ⟨h.db.log.keys, fun l hl d hd hid => ?_, fun d hd n hpos hn => ?_⟩
    · rcases List.mem_append.mp hd with hd | hd
      · exact h.db.log.rows l hl d hd hid
      · rw [List.mem_singleton.mp hd] at hid
        exact absurd hid.symm (h.db.fresh l hl).ne
    · rcases List.mem_append.mp hd with hd | hd
      · exact h.db.log.complete d hd n hpos hn
      · rw [List.mem_singleton.mp hd] at hn
        exact absurd (hpos.trans hn) (Nat.not_succ_le_zero 0)
  | claim d hd hc => exact LogInv.claim h.db hd hc
  | exhaust => exact LogInv.exhaust h.db
  | log row rows i fault ha hfault hget =>
    exact LogInv.record h.db
      (h.workers _ (List.mem_of_getElem? hget) row List.mem_cons_self)
  | finish job f outcome error hworker hone hend => exact LogInv.finish h hworker hone hend error

/-- Where a log row comes from. -/
theorem Write.log_origin (h : Inv s) (hw : Write s a ds log nextId nextToken) {l' : Attempt}
    (hl' : l' ∈ log) : (∃ l ∈ s.db.attempts, logKey l' = logKey l) ∨
      ∃ d ∈ s.db.deliveries, l'.deliveryId = d.id := by
  have hupdate : ∀ (q : Attempt → Bool) (g : Attempt → Attempt),
      l' ∈ updateWhere q g s.db.attempts → (∀ l, logKey (g l) = logKey l) →
        ∃ l ∈ s.db.attempts, logKey l' = logKey l := by
    intro q g hmem hg
    obtain ⟨l, hl, rfl⟩ := mem_updateWhere.mp hmem
    refine ⟨l, hl, ?_⟩
    split
    · exact hg l
    · rfl
  have hupsert : ∀ (new : Attempt) (g : Attempt → Attempt),
      l' ∈ upsertAttempt new g s.db.attempts → (∀ l, logKey (g l) = logKey l) →
        (∃ d ∈ s.db.deliveries, new.deliveryId = d.id) →
          (∃ l ∈ s.db.attempts, logKey l' = logKey l) ∨
            ∃ d ∈ s.db.deliveries, l'.deliveryId = d.id := by
    intro new g hmem hg hnew
    unfold upsertAttempt at hmem
    split at hmem
    · exact .inl (hupdate _ _ hmem hg)
    · rcases List.mem_append.mp hmem with hl | hl
      · exact .inl ⟨l', hl, rfl⟩
      · rw [List.mem_singleton.mp hl]
        exact .inr hnew
  cases hw with
  | same => exact .inl ⟨l', hl', rfl⟩
  | touch => exact .inl ⟨l', hl', rfl⟩
  | insert => exact .inl ⟨l', hl', rfl⟩
  | claim d hd hc => exact hupsert _ _ hl' (fun _ => rfl) ⟨d, hd, rfl⟩
  | exhaust => exact .inl ⟨l', hl', rfl⟩
  | log row rows i fault ha hfault hget =>
    obtain ⟨d, hd, hid, -⟩ := h.workers _ (List.mem_of_getElem? hget) row List.mem_cons_self
    exact hupsert _ _ hl' (fun _ => rfl) ⟨d, hd, hid.symm⟩
  | finish => exact .inl (hupdate _ _ hl' fun _ => rfl)

theorem Write.dbInv (h : Inv s) {db : Store} (hw : Writes s a db) : DbInv db where
  ids := (Write.unique h hw).1
  events := (Write.unique h hw).2
  rows := Write.rowsOk h hw
  fresh l hl := by
    have hnext := (Write.counters hw).1
    rcases Write.log_origin h hw hl with ⟨l₀, hl₀, hkey⟩ | ⟨d, hd, hid⟩
    · rw [(Prod.mk.inj hkey).1]
      exact Nat.lt_of_lt_of_le (h.db.fresh l₀ hl₀) hnext
    · rw [hid]
      exact Nat.lt_of_lt_of_le (h.db.rows d hd).id hnext
  log := Write.log_inv h hw

/-- The delivery under a token that was issued has not moved its attempts. -/
theorem Write.old_token (h : Inv s) (hw : Write s a ds log nextId nextToken) {d' : Delivery}
    (hd' : d' ∈ ds) {n : Nat} (hn : n < s.db.nextToken) (htoken : d'.leaseToken = some n) :
    ∃ d ∈ s.db.deliveries, d.id = d'.id ∧ d.leaseToken = some n ∧ d.attempts = d'.attempts := by
  rcases hw.origin h hd' with ⟨d, hd, hmove⟩ | ⟨tenantId, eventKey, request, rfl, -⟩
  · refine ⟨d, hd, hmove.same.1.symm, ?_⟩
    cases hmove with
    | keep => exact ⟨htoken, rfl⟩
    | touch => exact ⟨htoken, rfl⟩
    | claim =>
      cases htoken
      exact absurd hn (Nat.lt_irrefl _)
    | exhaust => cases htoken
    | finish _ _ hend =>
      rw [(hend.same d).2.2.2.2] at htoken
      cases htoken
  · cases htoken

theorem WorkerOk.write (h : Inv s) {db : Store} (hw : Writes s a db) {w : Worker}
    (hok : WorkerOk s.db w) : WorkerOk db w := by
  cases w with
  | processing job =>
    refine ⟨Nat.lt_of_lt_of_le hok.1 (Write.counters hw).2, fun d' hd' hid htoken => ?_⟩
    obtain ⟨d, hd, hsame, hold, hattempts⟩ := Write.old_token h hw hd' hok.1 htoken
    rw [← hattempts]
    exact hok.2 d hd (hsame.trans hid) hold
  | reclaiming rows =>
    intro row hrow
    obtain ⟨d, hd, hid, htenant, hattempt, hdead⟩ := hok row hrow
    obtain ⟨d', hd', hmove⟩ := Write.follows h hw hd
    have hsame := hmove.finished (.inr hdead)
    refine ⟨d', hd', hmove.same.1.trans hid, hmove.same.2.1.trans htenant, ?_, ?_⟩
    · rw [hsame]
      exact hattempt
    · rw [hsame]
      exact hdead

/-- The worker of a new claim. -/
theorem claimNext_workerOk (h : Inv s) {locked : DeliveryId → Bool} {job : DeliveryJob}
    (hjob : (claimNext locked s.db).1 = some job) :
    WorkerOk (claimNext locked s.db).2 (.processing job) := by
  unfold claimNext at hjob ⊢
  split at hjob
  · cases hjob
  · rename_i d hd
    cases hjob
    refine ⟨Nat.lt_succ_self _, fun d' hd' hid htoken => ?_⟩
    obtain ⟨x, hx, rfl⟩ := mem_updateWhere.mp hd'
    split
    · rename_i hxid
      rw [h.db.ids.eq_of_mem hx (candidate_mem hd).1 (by simpa using hxid)]
      rfl
    · rename_i hxid
      rw [if_neg hxid] at htoken
      exact absurd ((h.db.rows x hx).issued _ htoken) (Nat.lt_irrefl _)

/-- The worker of a reclaim. -/
theorem reclaimExhausted_workerOk (s : Store) :
    WorkerOk (reclaimExhausted s).2 (.reclaiming (reclaimExhausted s).1) := by
  intro row hrow
  obtain ⟨d, hd, rfl⟩ := List.mem_map.mp hrow
  rw [List.mem_filter] at hd
  exact ⟨exhausted s.now d, mem_updateWhere_of_pos hd.1 hd.2, rfl, rfl, rfl, rfl⟩

theorem mem_ifAnswered {fault : Fault} {workers : List Worker} {w : Worker}
    (h : w ∈ ifAnswered fault workers) : fault = .none ∧ w ∈ workers := by
  cases fault with
  | none => exact ⟨rfl, h⟩
  | before => cases h
  | after => cases h

theorem Inv.step {t : State} (h : Inv s) (hs : deliveryStep s a = some t) :
    Inv t := by
  have hw := deliveryStep_writes hs
  refine ⟨Write.dbInv h hw, ?_⟩
  have hold : ∀ w ∈ s.workers, WorkerOk t.db w := fun w hmem =>
    (h.workers w hmem).write h hw
  cases a with
  | record carrier request eventKey fault =>
    cases hs
    exact hold
  | claim locked fault =>
    cases hs
    intro w hmem
    rcases List.mem_append.mp hmem with hmem | hmem
    · exact hold w hmem
    · obtain ⟨rfl, hmem⟩ := mem_ifAnswered hmem
      obtain ⟨job, hjob, rfl⟩ := List.mem_map.mp hmem
      exact claimNext_workerOk h (Option.mem_toList.mp hjob)
  | reclaim fault =>
    cases hs
    intro w hmem
    rcases List.mem_append.mp hmem with hmem | hmem
    · exact hold w hmem
    · obtain ⟨rfl, hmem⟩ := mem_ifAnswered hmem
      rw [List.mem_singleton.mp hmem]
      exact reclaimExhausted_workerOk s.db
  | log i fault =>
    simp only [deliveryStep] at hs
    split at hs
    · rename_i row rows hget
      cases hs
      intro w hmem
      rcases List.mem_append.mp hmem with hmem | hmem
      · exact hold w (List.mem_of_mem_eraseIdx hmem)
      · obtain ⟨rfl, hmem⟩ := mem_ifAnswered hmem
        rw [List.mem_singleton.mp hmem]
        have hrest := hold _ (List.mem_of_getElem? hget)
        exact fun r hr => hrest r (List.mem_cons_of_mem _ hr)
    · cases hs
  | report i how fault =>
    simp only [deliveryStep] at hs
    split at hs
    · cases hs
      exact fun w hmem => hold w (List.mem_of_mem_eraseIdx hmem)
    · cases hs
  | stop i =>
    cases hs
    exact fun w hmem => hold w (List.mem_of_mem_eraseIdx hmem)
  | environment elapsed orders =>
    cases hs
    exact hold

end

end CommercePlayground.Notifications
