/-
CommercePlayground.Notifications.DeliveryTheorems — the delivery machine.

Whatever the workers do, attempts stay within the limit, finished deliveries stay,
a worker that lost its lease changes nothing, and an event has one delivery. The
log of attempts is another matter: `reclaim_exhausted` gives deliveries up in one
statement and logs them in others, and a worker that stops in between leaves the
log behind for ever. In a run without such a stop (`Uninterrupted`), the log of
every delivery that no worker is just giving up agrees with it.
-/
import CommercePlayground.Notifications.StoreTheorems

namespace CommercePlayground.Notifications

open Lib

/-! ## Workers that stop -/

/-- What a worker still has to log. -/
def Worker.unlogged : Worker → List Unlogged
  | .processing _ => []
  | .reclaiming rows => rows

def unloggedAt (s : State) (i : Nat) : List Unlogged := s.workers[i]?.elim [] Worker.unlogged

/-- The rows that a step leaves without a worker to log them. -/
def dropped (s : State) : Action → List Unlogged
  | .reclaim .after => (reclaimExhausted s.db).1
  | .log i .before => unloggedAt s i
  | .log i .after => (unloggedAt s i).tail
  | .stop i => unloggedAt s i
  | _ => []

/-- No worker stops or fails between the UPDATE of `reclaim_exhausted` and the INSERTs
that go with it. -/
def Uninterrupted (s : State) (a : Action) : Prop := dropped s a = []

instance (s : State) (a : Action) : Decidable (Uninterrupted s a) :=
  inferInstanceAs (Decidable (dropped s a = []))

/-- Some worker will log a delivery it has given up. -/
def Pending (s : State) (d : Delivery) : Prop :=
  ∃ w ∈ s.workers, ⟨d.id, d.tenantId, d.attempts⟩ ∈ w.unlogged

/-- A delivery was given up, and the log has not heard. -/
structure Behind (d : Delivery) (l : Attempt) : Prop where
  id : d.id = l.deliveryId
  status : d.status = .deadLettered
  last : l.attempt = d.attempts
  outcome : l.outcome = .processing

section
variable {s t : State} {a : Action} {ds : List Delivery} {log : List Attempt}
  {nextId nextToken : Nat}

theorem Ending.outcome_ne {now : Nat} {job : DeliveryJob} {f : Delivery → Delivery}
    {outcome : Outcome} (h : Ending now job f outcome) : outcome ≠ .processing := by
  cases h <;> decide

/-- A log row that is behind was so before, or the delivery has just been given up. -/
theorem Write.behind (h : Inv s) (hw : Write s a ds log nextId nextToken) {d' : Delivery}
    {l : Attempt} (hd' : d' ∈ ds) (hl : l ∈ log) (hb : Behind d' l) :
    (l ∈ s.db.attempts ∧ ∃ d ∈ s.db.deliveries, Behind d l ∧ d'.tenantId = d.tenantId) ∨
      ∃ d ∈ s.db.deliveries, isExhausted s.db.now d = true ∧ d' = exhausted s.db.now d ∧
        ∃ fault, a = .reclaim fault ∧ fault ≠ .before := by
  cases hw with
  | same => exact .inl ⟨hl, d', hd', hb, rfl⟩
  | touch tenantId eventKey =>
    obtain ⟨d, hd, rfl⟩ := mem_updateWhere.mp hd'
    refine .inl ⟨hl, d, hd, ?_⟩
    split at hb
    · rename_i hp
      rw [if_pos hp]
      exact ⟨⟨hb.id, hb.status, hb.last, hb.outcome⟩, rfl⟩
    · rename_i hp
      rw [if_neg hp]
      exact ⟨hb, rfl⟩
  | insert tenantId eventKey request =>
    rcases List.mem_append.mp hd' with hd | hd
    · exact .inl ⟨hl, d', hd, hb, rfl⟩
    · have hst := hb.status
      rw [List.mem_singleton.mp hd] at hst
      cases hst
  | claim d₀ hd₀ hc =>
    -- the delivery that is claimed is not the one that was given up
    obtain ⟨d, hd, rfl⟩ := mem_updateWhere.mp hd'
    split at hb
    · cases hb.status
    · rename_i hne
      rw [if_neg hne]
      unfold upsertAttempt at hl
      split at hl
      · obtain ⟨l₀, hl₀, rfl⟩ := mem_updateWhere.mp hl
        split at hb
        · rename_i hkey
          have hid : d.id = l₀.deliveryId := hb.id
          rw [(isAttempt_iff.mp hkey).1] at hid
          exact absurd (decide_eq_true hid) hne
        · rename_i hkey
          rw [if_neg hkey]
          exact .inl ⟨hl₀, d, hd, hb, rfl⟩
      · rcases List.mem_append.mp hl with hl | hl
        · exact .inl ⟨hl, d, hd, hb, rfl⟩
        · have hid := hb.id
          rw [List.mem_singleton.mp hl] at hid
          exact absurd (decide_eq_true hid) hne
  | exhaust fault ha hfault =>
    obtain ⟨d, hd, rfl⟩ := mem_updateWhere.mp hd'
    split
    · rename_i hex
      exact .inr ⟨d, hd, hex, rfl, fault, ha, hfault⟩
    · rename_i hex
      rw [if_neg hex] at hb
      exact .inl ⟨hl, d, hd, hb, rfl⟩
  | log row rows i fault ha hfault hget =>
    unfold recordExhausted upsertAttempt at hl
    simp only at hl
    split at hl
    · obtain ⟨l₀, hl₀, rfl⟩ := mem_updateWhere.mp hl
      split at hb
      · cases hb.outcome
      · rename_i hkey
        rw [if_neg hkey]
        exact .inl ⟨hl₀, d', hd', hb, rfl⟩
    · rcases List.mem_append.mp hl with hl | hl
      · exact .inl ⟨hl, d', hd', hb, rfl⟩
      · have hout := hb.outcome
        rw [List.mem_singleton.mp hl] at hout
        cases hout
  | finish job f outcome error hworker hone hend =>
    obtain ⟨l₀, hl₀, rfl⟩ := mem_updateWhere.mp hl
    split at hb
    · exact absurd hb.outcome hend.outcome_ne
    · rename_i hother
      rw [if_neg hother]
      obtain ⟨d, hd, rfl⟩ := mem_updateWhere.mp hd'
      split at hb
      · -- its attempt is the one that was ended
        rename_i hleased
        obtain ⟨hid, htenant, -, -⟩ := isLeased_iff.mp hleased
        obtain ⟨hsame, -, -, hattempts, -⟩ := hend.same d
        have hlid : d.id = l₀.deliveryId := hsame.symm.trans hb.id
        have hrow := h.db.log.rows l₀ hl₀ d hd hlid
        have hlast : l₀.attempt = job.attempt :=
          hb.last.trans (hattempts.trans (h.leased hworker hd hleased))
        exact absurd (decide_eq_true
          ⟨hlid.symm.trans hid, hrow.tenant.trans htenant, hlast⟩) hother
      · rename_i hleased
        rw [if_neg hleased]
        exact .inl ⟨hl₀, d, hd, hb, rfl⟩

/-- The log row that a worker writes is not behind. -/
theorem log_not_behind {row : Unlogged} {rows : List Unlogged} {i : Nat} {fault : Fault}
    (hget : s.workers[i]? = some (.reclaiming (row :: rows))) (hfault : fault ≠ .before)
    (hs : deliveryStep s (.log i fault) = some t) {l : Attempt} (hl : l ∈ t.db.attempts)
    (hkey : l.deliveryId = row.id ∧ l.attempt = row.attempt) : l.outcome = .deadLettered := by
  have hdb : t.db = recordExhausted row s.db := by
    simp only [deliveryStep, hget, Option.some.injEq] at hs
    subst hs
    cases fault with
    | none => rfl
    | before => exact absurd rfl hfault
    | after => rfl
  rw [hdb] at hl
  unfold recordExhausted upsertAttempt at hl
  simp only at hl
  split at hl
  · obtain ⟨l₀, hl₀, rfl⟩ := mem_updateWhere.mp hl
    split
    · rfl
    · rename_i hno
      rw [if_neg hno] at hkey
      exact absurd (isAttempt_iff.mpr hkey) hno
  · rename_i hany
    rcases List.mem_append.mp hl with hl | hl
    · exact absurd (List.any_eq_true.mpr ⟨l, hl, isAttempt_iff.mpr hkey⟩) hany
    · rw [List.mem_singleton.mp hl]
      rfl

theorem mem_eraseIdx_or {ws : List Worker} {w : Worker} (h : w ∈ ws) (i : Nat) :
    w ∈ ws.eraseIdx i ∨ ws[i]? = some w := by
  obtain ⟨j, hj⟩ := List.mem_iff_getElem?.mp h
  by_cases hji : j = i
  · rw [hji] at hj
    exact .inr hj
  · exact .inl (List.mem_eraseIdx_iff_getElem?.mpr ⟨j, hji, hj⟩)

theorem unlogged_at {i : Nat} {w : Worker} (h : s.workers[i]? = some w) :
    unloggedAt s i = w.unlogged := by
  unfold unloggedAt
  rw [h]
  rfl

/-- Without interruption, what was to be logged is still to be, or is logged now. -/
theorem pending_step (hok : Uninterrupted s a) (hs : deliveryStep s a = some t)
    {row : Unlogged} {w : Worker} (hw : w ∈ s.workers) (hrow : row ∈ w.unlogged) :
    (∃ w' ∈ t.workers, row ∈ w'.unlogged) ∨ ∃ i fault rows, a = .log i fault ∧
      s.workers[i]? = some (.reclaiming (row :: rows)) ∧ fault ≠ .before := by
  cases a with
  | record carrier request eventKey fault =>
    cases hs
    exact .inl ⟨w, hw, hrow⟩
  | claim locked fault =>
    cases hs
    exact .inl ⟨w, List.mem_append_left _ hw, hrow⟩
  | reclaim fault =>
    cases hs
    exact .inl ⟨w, List.mem_append_left _ hw, hrow⟩
  | log i fault =>
    simp only [deliveryStep] at hs
    split at hs
    · rename_i first rows hget
      cases hs
      rcases mem_eraseIdx_or hw i with hw | hwi
      · exact .inl ⟨w, List.mem_append_left _ hw, hrow⟩
      · have heq : w = .reclaiming (first :: rows) := Option.some.inj (hwi.symm.trans hget)
        rw [heq] at hrow
        have hat : unloggedAt s i = first :: rows := unlogged_at hget
        cases fault with
        | none =>
          rcases List.mem_cons.mp hrow with rfl | hrow
          · exact .inr ⟨i, .none, rows, rfl, hget, by decide⟩
          · exact .inl ⟨.reclaiming rows, List.mem_append_right _ (List.mem_singleton.mpr rfl),
              hrow⟩
        | before =>
          have hdrop : unloggedAt s i = [] := hok
          rw [hat] at hdrop
          cases hdrop
        | after =>
          have hdrop : (unloggedAt s i).tail = [] := hok
          rw [hat] at hdrop
          rcases List.mem_cons.mp hrow with rfl | hrow
          · exact .inr ⟨i, .after, rows, rfl, hget, by decide⟩
          · rw [show rows = [] from hdrop] at hrow
            cases hrow
    · cases hs
  | report i how fault =>
    simp only [deliveryStep] at hs
    split at hs
    · rename_i job hget
      cases hs
      rcases mem_eraseIdx_or hw i with hw | hwi
      · exact .inl ⟨w, hw, hrow⟩
      · rw [Option.some.inj (hwi.symm.trans hget)] at hrow
        cases hrow
    · cases hs
  | stop i =>
    cases hs
    rcases mem_eraseIdx_or hw i with hw | hwi
    · exact .inl ⟨w, hw, hrow⟩
    · have hdrop : unloggedAt s i = [] := hok
      rw [unlogged_at hwi] at hdrop
      rw [hdrop] at hrow
      cases hrow
  | environment elapsed orders =>
    cases hs
    exact .inl ⟨w, hw, hrow⟩

/-- Every log row that is behind has a worker that will write it. -/
def Covered (s : State) : Prop :=
  ∀ d ∈ s.db.deliveries, ∀ l ∈ s.db.attempts, Behind d l → Pending s d

theorem Covered.step (hi : Inv s) (h : Covered s) (hok : Uninterrupted s a)
    (hs : deliveryStep s a = some t) : Covered t := by
  intro d' hd' l hl hb
  rcases Write.behind hi (deliveryStep_writes hs) hd' hl hb with
    ⟨hl₀, d, hd, hbd, htenant⟩ | ⟨d, hd, hex, rfl, fault, rfl, hfault⟩
  · have hsame : (⟨d'.id, d'.tenantId, d'.attempts⟩ : Unlogged) =
        ⟨d.id, d.tenantId, d.attempts⟩ := by
      rw [hb.id, hbd.id, htenant, ← hb.last, ← hbd.last]
    obtain ⟨w, hw, hrow⟩ := h d hd l hl₀ hbd
    rcases pending_step hok hs hw hrow with ⟨w', hw', hrow'⟩ | ⟨i, fault, rows, rfl, hget, hf⟩
    · refine ⟨w', hw', ?_⟩
      rw [hsame]
      exact hrow'
    · have hlogged := log_not_behind hget hf hs hl ⟨hbd.id.symm, hbd.last⟩
      rw [hb.outcome] at hlogged
      cases hlogged
  · have hrow : (⟨d.id, d.tenantId, d.attempts⟩ : Unlogged) ∈ (reclaimExhausted s.db).1 :=
      List.mem_map.mpr ⟨d, List.mem_filter.mpr ⟨hd, hex⟩, rfl⟩
    cases hs
    cases fault with
    | none =>
      exact ⟨.reclaiming (reclaimExhausted s.db).1,
        List.mem_append_right _ (List.mem_singleton.mpr rfl), hrow⟩
    | before => exact absurd rfl hfault
    | after =>
      have hdrop : (reclaimExhausted s.db).1 = [] := hok
      rw [hdrop] at hrow
      cases hrow

end

/-! ## The protocol -/

/-- A job whose lease another worker has, or nobody. -/
def Stale (s : Store) (job : DeliveryJob) : Prop :=
  ∀ d ∈ s.deliveries, d.id = job.id → d.leaseToken ≠ some job.leaseToken

/-- A delivery but for the time of its last update. -/
def untimed (d : Delivery) : Delivery := { d with updatedAt := 0 }

def Finished (d : Delivery) : Prop := d.status = .delivered ∨ d.status = .deadLettered

/-- A log row says how its attempt ended: the last one as the delivery stands, an
earlier one with a retry or, if its worker was never heard of again, not at all. -/
structure Agrees (d : Delivery) (l : Attempt) : Prop where
  positive : 1 ≤ l.attempt
  within : l.attempt ≤ d.attempts
  earlier : l.attempt < d.attempts → l.outcome = .processing ∨ l.outcome = .retry
  last : l.attempt = d.attempts → l.outcome = outcomeFor d.status

/-- The log of a delivery agrees with it, and one row shows its end. -/
structure Logged (s : Store) (d : Delivery) : Prop where
  rows : ∀ l ∈ s.attempts, l.deliveryId = d.id → Agrees d l
  final : Finished d → ∃ l ∈ s.attempts, l.deliveryId = d.id ∧ l.attempt = d.attempts ∧
    l.outcome = outcomeFor d.status ∧
    ∀ l' ∈ s.attempts, l'.deliveryId = d.id → l'.outcome = outcomeFor d.status → l' = l

section
variable {s t : State} {a : Action}

theorem finishAttempt_stale {job : DeliveryJob} {f : Delivery → Delivery} {outcome : Outcome}
    {error : Option String} {lost : String} {s : Store} (h : Stale s job) :
    finishAttempt job f outcome error lost s = .error lost := by
  have hnone : affected (isLeased job) s.deliveries = 0 := by
    refine List.countP_eq_zero.mpr fun d hd hl => ?_
    obtain ⟨hid, -, -, htoken⟩ := isLeased_iff.mp hl
    exact h d hd hid htoken
  unfold finishAttempt
  rw [hnone]
  rfl

/-- Whatever a worker reports under a lost lease is lost. -/
theorem Stale.report {job : DeliveryJob} {s : Store} (h : Stale s job) (how : Report) :
    ∃ e, report job s how = .error e := by
  cases how with
  | delivered => exact ⟨_, finishAttempt_stale h⟩
  | failed error =>
    simp only [Notifications.report, markFailedOrDeadLetter]
    split
    · exact ⟨_, finishAttempt_stale h⟩
    · exact ⟨_, finishAttempt_stale h⟩
  | invalid error => exact ⟨_, finishAttempt_stale h⟩

theorem Stale.step {job : DeliveryJob} (hi : Inv s) (hissued : job.leaseToken < s.db.nextToken)
    (h : Stale s.db job) (hs : deliveryStep s a = some t) : Stale t.db job := by
  intro d' hd' hid htoken
  obtain ⟨d, hd, hsame, hold, -⟩ :=
    Write.old_token hi (deliveryStep_writes hs) hd' hissued htoken
  exact h d hd (hsame.trans hid) hold

/-- Recording an event again touches its delivery, and nothing else. -/
theorem recordDelivery_again {d : Delivery} {db : Store} (hd : d ∈ db.deliveries)
    (carrier : Except String Unit) {request : NotificationRequest}
    (htenant : request.tenantId = some d.tenantId) :
    (recordDelivery carrier request d.eventKey db).2.deliveries.map untimed =
        db.deliveries.map untimed ∧
      (recordDelivery carrier request d.eventKey db).2.attempts = db.attempts := by
  unfold recordDelivery
  split
  · exact ⟨rfl, rfl⟩
  · exact ⟨rfl, rfl⟩
  · rename_i tenantId hrequest
    rw [htenant] at hrequest
    cases hrequest
    split
    · exact ⟨map_updateWhere_of_eq fun _ _ _ => rfl, rfl⟩
    · rename_i hnone
      have := List.find?_eq_none.mp hnone d hd
      rw [isEvent_iff.mpr ⟨rfl, rfl⟩] at this
      exact absurd rfl this

/-- The log of an attempt that is over is not written again. -/
theorem Write.old_attempt {ds : List Delivery} {log : List Attempt} {nextId nextToken : Nat}
    (h : Inv s) (hw : Write s a ds log nextId nextToken) {d : Delivery} {l : Attempt}
    (hd : d ∈ s.db.deliveries) (hl : l ∈ s.db.attempts) (hid : d.id = l.deliveryId)
    (hlt : l.attempt < d.attempts) : l ∈ log := by
  cases hw with
  | same => exact hl
  | touch => exact hl
  | insert => exact hl
  | claim d₀ hd₀ hc =>
    unfold upsertAttempt
    split
    · refine mem_updateWhere_of_not hl (Bool.eq_false_iff.mpr fun hkey => ?_)
      obtain ⟨hlid, hln⟩ := isAttempt_iff.mp hkey
      have hwithin := (h.db.log.rows l hl d₀ hd₀ hlid.symm).within
      have hnew : l.attempt = d₀.attempts + 1 := hln
      omega
    · exact List.mem_append_left _ hl
  | exhaust => exact hl
  | log row rows i fault ha hfault hget =>
    obtain ⟨d₀, hd₀, hid₀, -, hattempt, -⟩ :=
      h.workers _ (List.mem_of_getElem? hget) row List.mem_cons_self
    have hkeep : isAttempt row.id row.attempt l = false := by
      refine Bool.eq_false_iff.mpr fun hkey => ?_
      obtain ⟨hlid, hln⟩ := isAttempt_iff.mp hkey
      have hsame : d = d₀ := h.db.ids.eq_of_mem hd hd₀ (hid.trans (hlid.trans hid₀.symm))
      rw [hsame, hattempt] at hlt
      omega
    unfold recordExhausted upsertAttempt
    simp only
    split
    · exact mem_updateWhere_of_not hl hkeep
    · exact List.mem_append_left _ hl
  | finish job f outcome error hworker hone hend =>
    refine mem_updateWhere_of_not hl (Bool.eq_false_iff.mpr fun hkey => ?_)
    simp only [isJobAttempt, decide_eq_true_eq] at hkey
    obtain ⟨d₀, hd₀, hl₀⟩ := exists_of_affected_ne_zero (by rw [hone]; exact Nat.one_ne_zero)
    have hsame : d = d₀ :=
      h.db.ids.eq_of_mem hd hd₀ (hid.trans (hkey.1.trans (isLeased_iff.mp hl₀).1.symm))
    rw [hsame, h.leased hworker hd₀ hl₀] at hlt
    omega

/-- A delivery whose log is not behind is logged. -/
theorem logged_of_not_behind (h : DbInv s.db) {d : Delivery} (hd : d ∈ s.db.deliveries)
    (hno : ∀ l ∈ s.db.attempts, ¬ Behind d l) : Logged s.db d := by
  have hagrees : ∀ l ∈ s.db.attempts, l.deliveryId = d.id → Agrees d l := by
    intro l hl hid
    have hrow := h.log.rows l hl d hd hid.symm
    refine ⟨hrow.positive, hrow.within, hrow.earlier, fun hlast => ?_⟩
    rcases hrow.last hlast with hout | ⟨hdead, hout⟩
    · exact hout
    · exact absurd ⟨hid.symm, hdead, hlast, hout⟩ (hno l hl)
  refine ⟨hagrees, fun hfinished => ?_⟩
  have hfinal : outcomeFor d.status ≠ .processing ∧ outcomeFor d.status ≠ .retry := by
    rcases hfinished with hst | hst <;> rw [hst] <;> decide
  have hpos : 1 ≤ d.attempts := by
    refine (h.rows d hd).started fun hst => hfinal.2 ?_
    rw [hst]
    rfl
  obtain ⟨l, hl, hid, hn⟩ := h.log.complete d hd d.attempts hpos le_rfl
  refine ⟨l, hl, hid, hn, (hagrees l hl hid).last hn, fun l' hl' hid' hout => ?_⟩
  -- an earlier attempt does not end a delivery
  have hlast : l'.attempt = d.attempts := by
    have hrow := hagrees l' hl' hid'
    rcases hrow.within.lt_or_eq with hlt | heq
    · rcases hrow.earlier hlt with h' | h'
      · exact absurd (hout.symm.trans h') hfinal.1
      · exact absurd (hout.symm.trans h') hfinal.2
    · exact heq
  exact h.log.keys.eq_of_mem hl' hl (Prod.ext (hid'.trans hid.symm) (hlast.trans hn.symm))

end

/-- What the workers rely on, whether or not one of them stops. -/
structure DeliveryProtocol (s : State) : Prop where
  bounded : ∀ d ∈ s.db.deliveries, d.attempts ≤ maxAttempts
  one : KeyUnique eventOf s.db.deliveries
  again : ∀ carrier request, ∀ d ∈ s.db.deliveries, request.tenantId = some d.tenantId →
    (recordDelivery carrier request d.eventKey s.db).2.deliveries.map untimed =
        s.db.deliveries.map untimed ∧
      (recordDelivery carrier request d.eventKey s.db).2.attempts = s.db.attempts
  stale : ∀ i job how fault t, s.workers[i]? = some (.processing job) → Stale s.db job →
    deliveryStep s (.report i how fault) = some t → t.db = s.db
  log : KeyUnique logKey s.db.attempts

theorem Inv.protocol {s : State} (h : Inv s) : DeliveryProtocol s where
  bounded d hd := (h.db.rows d hd).bounded
  one := h.db.events
  again carrier _ _ hd htenant := recordDelivery_again hd carrier htenant
  stale i job how fault t hget hstale hs := by
    simp only [deliveryStep, hget, Option.some.injEq] at hs
    subst hs
    obtain ⟨e, he⟩ := hstale.report how
    simp only [he]
  log := h.db.log.keys

/-- What every later state keeps of a state. -/
structure Kept (s t : State) : Prop where
  finished : ∀ d ∈ s.db.deliveries, Finished d → ∃ d' ∈ t.db.deliveries, untimed d' = untimed d
  stale : ∀ job, Worker.processing job ∈ s.workers → Stale s.db job → Stale t.db job
  log : ∀ d ∈ s.db.deliveries, ∀ l ∈ s.db.attempts, d.id = l.deliveryId →
    l.attempt < d.attempts → l ∈ t.db.attempts

theorem Inv.reach {ok : State → Action → Prop} {s t : State} (h : Inv s)
    (hr : Reach deliveryStep ok s t) : Inv t :=
  hr.invariant h fun _ _ _ hi _ hs => hi.step hs

theorem finished_kept {s t : State} (h : Inv s)
    (hr : Reach deliveryStep (fun _ _ => True) s t) {d : Delivery} (hd : d ∈ s.db.deliveries)
    (hf : Finished d) : ∃ d' ∈ t.db.deliveries, untimed d' = untimed d := by
  have hall : Inv t ∧ ∃ d' ∈ t.db.deliveries, untimed d' = untimed d :=
    hr.invariant (I := fun v => Inv v ∧ ∃ d' ∈ v.db.deliveries, untimed d' = untimed d)
      ⟨h, d, hd, rfl⟩ fun v b w hv _ hs => by
        obtain ⟨hi, x, hx, hsame⟩ := hv
        refine ⟨hi.step hs, ?_⟩
        obtain ⟨y, hy, hmove⟩ := Write.follows hi (deliveryStep_writes hs) hx
        have hst : (untimed x).status = (untimed d).status := by rw [hsame]
        have hfx : x.status = .delivered ∨ x.status = .deadLettered := by
          rw [show x.status = d.status from hst]
          exact hf
        refine ⟨y, hy, ?_⟩
        rw [hmove.finished hfx]
        exact hsame
  exact hall.2

theorem stale_kept {s t : State} (h : Inv s) (hr : Reach deliveryStep (fun _ _ => True) s t)
    {job : DeliveryJob} (hissued : job.leaseToken < s.db.nextToken) (hstale : Stale s.db job) :
    Stale t.db job := by
  have hall : Inv t ∧ job.leaseToken < t.db.nextToken ∧ Stale t.db job :=
    hr.invariant (I := fun v => Inv v ∧ job.leaseToken < v.db.nextToken ∧ Stale v.db job)
      ⟨h, hissued, hstale⟩ fun v b w hv _ hs =>
        ⟨hv.1.step hs,
          Nat.lt_of_lt_of_le hv.2.1 (Write.counters (deliveryStep_writes hs)).2,
          hv.2.2.step hv.1 hv.2.1 hs⟩
  exact hall.2.2

theorem old_attempt_kept {s t : State} (h : Inv s)
    (hr : Reach deliveryStep (fun _ _ => True) s t) {d : Delivery} {l : Attempt}
    (hd : d ∈ s.db.deliveries) (hl : l ∈ s.db.attempts) (hid : d.id = l.deliveryId)
    (hlt : l.attempt < d.attempts) : l ∈ t.db.attempts := by
  have hall : Inv t ∧ l ∈ t.db.attempts ∧
      ∃ x ∈ t.db.deliveries, x.id = l.deliveryId ∧ l.attempt < x.attempts :=
    hr.invariant (I := fun v => Inv v ∧ l ∈ v.db.attempts ∧
        ∃ x ∈ v.db.deliveries, x.id = l.deliveryId ∧ l.attempt < x.attempts)
      ⟨h, hl, d, hd, hid, hlt⟩ fun v b w hv _ hs => by
        obtain ⟨hi, hlv, x, hx, hxid, hxlt⟩ := hv
        have hw := deliveryStep_writes hs
        obtain ⟨y, hy, hmove⟩ := Write.follows hi hw hx
        exact ⟨hi.step hs, Write.old_attempt hi hw hx hlv hxid hxlt, y, hy,
          hmove.same.1.trans hxid, Nat.lt_of_lt_of_le hxlt hmove.attempts⟩
  exact hall.2.1

theorem Inv.kept {s t : State} (h : Inv s) (hr : Reach deliveryStep (fun _ _ => True) s t) :
    Kept s t where
  finished _ hd hf := finished_kept h hr hd hf
  stale _ hw hstale := stale_kept h hr (h.workers _ hw).1 hstale
  log _ hd _ hl hid hlt := old_attempt_kept h hr hd hl hid hlt

/-- A database without deliveries, and no workers. -/
structure Start (s : State) : Prop where
  workers : s.workers = []
  deliveries : s.db.deliveries = []
  attempts : s.db.attempts = []

theorem Start.inv {s : State} (h : Start s) : Inv s where
  db :=
    { ids := by rw [h.deliveries]; exact KeyUnique.nil _
      events := by rw [h.deliveries]; exact KeyUnique.nil _
      rows := by simp [h.deliveries]
      fresh := by simp [h.attempts]
      log := by
        rw [h.deliveries, h.attempts]
        exact ⟨KeyUnique.nil _, by simp, by simp⟩ }
  workers := by simp [h.workers]

/-- The deliveries, in every state reached without a worker that stops between the two
statements of a reclaim: attempts stay within the limit, an event has one delivery,
which recording it again does not reopen, and a worker that lost its lease changes
nothing. The log has one row for an attempt, which agrees with the delivery and
shows its end, but for the deliveries that some worker is just giving up. What is
finished, lost or logged stays so. -/
theorem delivery_machine (s₀ s : State) (h₀ : Start s₀)
    (h : Reach deliveryStep Uninterrupted s₀ s) :
    DeliveryProtocol s ∧ (∀ d ∈ s.db.deliveries, Pending s d ∨ Logged s.db d) ∧
      ∀ t, Reach deliveryStep (fun _ _ => True) s t → Kept s t := by
  have hall : Inv s ∧ Covered s :=
    h.invariant (I := fun v => Inv v ∧ Covered v)
      ⟨h₀.inv, fun d hd => by rw [h₀.deliveries] at hd; cases hd⟩
      fun v b w hv hok hs => ⟨hv.1.step hs, hv.2.step hv.1 hok hs⟩
  obtain ⟨hi, hcovered⟩ := hall
  refine ⟨hi.protocol, fun d hd => ?_, fun t hr => hi.kept hr⟩
  by_cases hpending : Pending s d
  · exact .inl hpending
  · exact .inr (logged_of_not_behind hi.db hd fun l hl hb => hpending (hcovered d hd l hl hb))

/-! A delivery whose four leases expire one after the other. -/

def sampleStart : State := ⟨⟨[], [], [], 0, 0, 0⟩, []⟩

def sampleLease : List Action :=
  [.claim (fun _ => false) .none, .stop 0, .environment (31 * second) []]

def sampleExpiries : List Action :=
  [.environment 0 [(1, 7)], .record (.ok ()) ⟨some 1, 7, .webhook⟩ 9 .none] ++
    sampleLease ++ sampleLease ++ sampleLease ++ sampleLease

/-- The worker that gives it up stops before it has logged that. -/
theorem exhausted_delivery_unlogged :
    ∃ s, run deliveryStep sampleStart (sampleExpiries ++ [.reclaim .none, .stop 0]) = some s ∧
      s.workers = [] ∧ s.db.deliveries.map (fun d => (d.status, d.attempts)) =
        [(.deadLettered, 4)] ∧
      s.db.attempts.map (fun l => (l.attempt, l.outcome)) =
        [(1, .processing), (2, .processing), (3, .processing), (4, .processing)] ∧
      ¬ ∀ d ∈ s.db.deliveries, Logged s.db d := by
  have hrun : (run deliveryStep sampleStart
      (sampleExpiries ++ [.reclaim .none, .stop 0])).isSome = true := by decide
  obtain ⟨s, hs⟩ := Option.isSome_iff_exists.mp hrun
  have hview : (run deliveryStep sampleStart (sampleExpiries ++ [.reclaim .none, .stop 0])).map
      (fun s => (s.workers, s.db.deliveries.map (fun d => (d.status, d.attempts)),
        s.db.attempts.map fun l => (l.attempt, l.outcome))) =
      some ([], [(.deadLettered, 4)],
        [(1, .processing), (2, .processing), (3, .processing), (4, .processing)]) := by
    decide
  rw [hs] at hview
  obtain ⟨hworkers, hview⟩ := Prod.mk.inj (Option.some.inj hview)
  obtain ⟨hdeliveries, hattempts⟩ := Prod.mk.inj hview
  refine ⟨s, hs, hworkers, hdeliveries, hattempts, fun hlogged => ?_⟩
  obtain ⟨d, hd, hview⟩ : ∃ d ∈ s.db.deliveries, (d.status, d.attempts) =
      (Status.deadLettered, 4) := by
    have hmem : (Status.deadLettered, 4) ∈ s.db.deliveries.map fun d => (d.status, d.attempts) := by
      rw [hdeliveries]
      exact List.mem_singleton.mpr rfl
    obtain ⟨d, hd, heq⟩ := List.mem_map.mp hmem
    exact ⟨d, hd, heq⟩
  have hdead : d.status = .deadLettered := (Prod.mk.inj hview).1
  obtain ⟨l, hl, -, -, hout, -⟩ := (hlogged d hd).final (.inr hdead)
  rw [hdead] at hout
  have hmem : (l.attempt, Outcome.deadLettered) ∈
      s.db.attempts.map fun l => (l.attempt, l.outcome) :=
    List.mem_map.mpr ⟨l, hl, Prod.ext rfl hout⟩
  rw [hattempts] at hmem
  simp at hmem

/-- A worker that goes on logs it. -/
theorem delivery_machine_sample :
    ∃ s, runWhere deliveryStep (fun s a => decide (Uninterrupted s a)) sampleStart
        (sampleExpiries ++ [.reclaim .none, .log 0 .none]) = some s ∧
      s.db.attempts.map (fun l => (l.attempt, l.outcome)) =
        [(1, .processing), (2, .processing), (3, .processing), (4, .deadLettered)] ∧
      ∀ d ∈ s.db.deliveries, Pending s d ∨ Logged s.db d := by
  have hrun : (runWhere deliveryStep (fun s a => decide (Uninterrupted s a)) sampleStart
      (sampleExpiries ++ [.reclaim .none, .log 0 .none])).isSome = true := by decide
  obtain ⟨s, hs⟩ := Option.isSome_iff_exists.mp hrun
  have hview : (runWhere deliveryStep (fun s a => decide (Uninterrupted s a)) sampleStart
      (sampleExpiries ++ [.reclaim .none, .log 0 .none])).map
      (fun s => s.db.attempts.map fun l => (l.attempt, l.outcome)) =
      some [(1, .processing), (2, .processing), (3, .processing), (4, .deadLettered)] := by
    decide
  rw [hs] at hview
  have hreach := (reach_of_runWhere hs).weaken fun v a hok => of_decide_eq_true hok
  exact ⟨s, hs, Option.some.inj hview,
    (delivery_machine sampleStart s ⟨rfl, rfl, rfl⟩ hreach).2.1⟩

end CommercePlayground.Notifications
