/-
CommercePlayground.Outbox.PublisherTheorems — the outbox machine.

`outboxStep_write` says once what a step can do to the rows: it queues one, or
moves each row at most once, and a move is one of five (`Move`). Everything else
follows from the moves: a row has a claim exactly while it is processing, its
attempts stay within the limit, published rows stay, and only a publisher that
holds the claim of a row and has its routed acknowledgement publishes it.
-/
import CommercePlayground.Lib.Transition
import CommercePlayground.Outbox.Publisher

namespace CommercePlayground.Outbox

open Lib

/-! ## Claiming -/

theorem isClaimable_iff {now : Nat} {r : Row} : isClaimable now r = true ↔
    r.attempts < outboxMaxAttempts ∧ (r.status = .queued ∧ r.availableAt ≤ now ∨
      r.status = .processing ∧ claimExpired now r = true) := by
  simp only [isClaimable, Bool.and_eq_true, Bool.or_eq_true, decide_eq_true_eq]

theorem isExhausted_iff {now : Nat} {r : Row} : isExhausted now r = true ↔
    outboxMaxAttempts ≤ r.attempts ∧ (r.status = .queued ∨
      r.status = .processing ∧ claimExpired now r = true) := by
  simp only [isExhausted, Bool.and_eq_true, Bool.or_eq_true, decide_eq_true_eq]

theorem isHeld_iff {now : Nat} {claim : OutboxClaim} {r : Row} : isHeld now claim r = true ↔
    r.id = claim.event.id ∧ r.status = .processing ∧ r.claimToken = some claim.claimToken ∧
      ∃ t, r.claimExpiresAt = some t ∧ now < t := by
  simp only [isHeld, Bool.and_eq_true, decide_eq_true_eq, and_assoc]
  cases r.claimExpiresAt <;> simp

theorem isClaimable_exhausted (now now' : Nat) (r : Row) :
    isClaimable now (exhausted now' r) = false := by
  simp [isClaimable, exhausted]

theorem not_isExhausted {now : Nat} {r : Row} (h : isClaimable now r = true) :
    isExhausted now r = false := by
  rw [← Bool.not_eq_true, isExhausted_iff]
  have := (isClaimable_iff.mp h).1
  omega

/-- What the claim of a row makes of every row. -/
def afterClaim (s : Store) (id : OutboxId) (r : Row) : Row :=
  if isExhausted s.now r then exhausted s.now r
  else if r.id = id then claimed s.now s.nextToken r
  else r

theorem mem_failExhausted {s : Store} {r : Row} (h : isClaimable s.now r = true) :
    r ∈ (failExhausted s).rows ↔ r ∈ s.rows := by
  constructor
  · intro hr
    obtain ⟨x, hx, rfl⟩ := mem_updateWhere.mp hr
    split at h
    · rw [isClaimable_exhausted] at h
      cases h
    · rename_i hno
      rw [if_neg hno]
      exact hx
  · intro hr
    exact mem_updateWhere_of_not hr (not_isExhausted h)

/-- **Claiming.** The exhausted rows fail, and the oldest row that can be claimed
and is not locked is. -/
theorem claimOutboxEvent_spec {s : Store} (hu : KeyUnique Row.id s.rows)
    (locked : OutboxId → Bool) :
    (claimOutboxEvent locked s = (none, failExhausted s) ∧
      ∀ r ∈ s.rows, isClaimable s.now r = true → locked r.id = true) ∨
    ∃ r ∈ s.rows, isClaimable s.now r = true ∧ locked r.id = false ∧
      (∀ x ∈ s.rows, isClaimable s.now x = true → locked x.id = false →
        r.createdAt ≤ x.createdAt) ∧
      claimOutboxEvent locked s =
        (some ⟨claimed s.now s.nextToken r, s.nextToken⟩,
          { rows := s.rows.map (afterClaim s r.id), now := s.now,
            nextToken := s.nextToken + 1 }) := by
  have hmem : ∀ r, r ∈ ((failExhausted s).rows.filter fun r =>
      isClaimable s.now r && !locked r.id) ↔
      r ∈ s.rows ∧ isClaimable s.now r = true ∧ locked r.id = false := by
    intro r
    rw [List.mem_filter, Bool.and_eq_true, Bool.not_eq_true']
    constructor
    · rintro ⟨hr, hc, hl⟩
      exact ⟨(mem_failExhausted hc).mp hr, hc, hl⟩
    · rintro ⟨hr, hc, hl⟩
      exact ⟨(mem_failExhausted hc).mpr hr, hc, hl⟩
  unfold claimOutboxEvent
  show (_ = _ ∧ _) ∨ _
  cases hnext : nextEvent locked s.now (failExhausted s).rows with
  | none =>
    left
    have hnil := List.argmin_eq_none.mp hnext
    refine ⟨by simp only [failExhausted] at hnext ⊢; rw [hnext], fun r hr hc => ?_⟩
    by_contra hl
    have := (hmem r).mpr ⟨hr, hc, by simpa using hl⟩
    rw [hnil] at this
    cases this
  | some r =>
    right
    obtain ⟨hr, hc, hl⟩ := (hmem r).mp (List.argmin_mem hnext)
    refine ⟨r, hr, hc, hl, fun x hx hxc hxl => ?_, ?_⟩
    · exact List.le_of_mem_argmin ((hmem x).mpr ⟨hx, hxc, hxl⟩) hnext
    · have hrows : updateWhere (fun x => decide (x.id = r.id)) (claimed s.now s.nextToken)
          (failExhausted s).rows = s.rows.map (afterClaim s r.id) := by
        unfold updateWhere failExhausted updateWhere
        rw [List.map_map]
        refine List.map_congr_left fun x hx => ?_
        unfold afterClaim
        rw [Function.comp_apply]
        by_cases hex : isExhausted s.now x = true
        · -- the row that is claimed is not an exhausted one
          have hne : x.id ≠ r.id := by
            intro hid
            rw [hu.eq_of_mem hx hr hid, not_isExhausted hc] at hex
            cases hex
          rw [if_pos hex, if_pos hex]
          exact if_neg fun h => hne (of_decide_eq_true h)
        · rw [if_neg hex, if_neg hex]
          by_cases hid : x.id = r.id
          · rw [if_pos hid, if_pos (by simpa using hid)]
          · rw [if_neg hid, if_neg (by simpa using hid)]
      simp only [failExhausted] at hnext hrows ⊢
      rw [hnext]
      simp only [hrows]

/-! ## What a step does to the rows -/

/-- What can happen to a row. -/
inductive Move (s : State) (a : Action) (next : Nat) : Row → Row → Prop where
  | exhaust {r : Row} (h : isExhausted s.db.now r = true) : Move s a next r (exhausted s.db.now r)
  | claim {r : Row} (h : isClaimable s.db.now r = true) (hnext : s.db.nextToken < next) :
      Move s a next r (claimed s.db.now s.db.nextToken r)
  | publish {r : Row} {i : Nat} {fault : Fault} {claim : OutboxClaim} {publication : Publication}
      (ha : a = .record i fault) (hp : s.publishers[i]? = some ⟨claim, some publication⟩)
      (hok : publishOutboxMessage publication = .ok ()) (h : isHeld s.db.now claim r = true) :
      Move s a next r (markedPublished s.db.now r)
  | fail {r : Row} {claim : OutboxClaim} {error : PublishError}
      (h : isHeld s.db.now claim r = true) :
      Move s a next r (markedFailed s.db.now claim.event.attempts error r)
  | replay {r : Row} {tenantId : TenantId} {id : OutboxId} (ha : a = .replay tenantId id)
      (h : r.status = .failed) : Move s a next r (replayed s.db.now r)

/-- The rows after a step. -/
inductive Write (s : State) (a : Action) (db : Store) : Prop where
  | move (f : Row → Row) (hrows : db.rows = s.db.rows.map f)
      (hf : ∀ r ∈ s.db.rows, f r = r ∨ Move s a db.nextToken r (f r))
      (hnext : s.db.nextToken ≤ db.nextToken) (hnow : s.db.now ≤ db.now)
  | insert (id : OutboxId) (event : OutboxEvent)
      (hrows : db.rows = s.db.rows ++ [newRow s.db.now id event])
      (hid : ∀ r ∈ s.db.rows, r.id ≠ id) (hnext : s.db.nextToken = db.nextToken)
      (hnow : s.db.now ≤ db.now)

theorem Write.same (s : State) (a : Action) {db : Store} (hrows : db.rows = s.db.rows)
    (hnext : s.db.nextToken ≤ db.nextToken) (hnow : s.db.now ≤ db.now) : Write s a db :=
  .move id (by rw [hrows, List.map_id]) (fun _ _ => .inl rfl) hnext hnow

theorem Write.update {s : State} {a : Action} {db : Store} {sel : Row → Bool} {f : Row → Row}
    (hrows : db.rows = updateWhere sel f s.db.rows)
    (hf : ∀ r ∈ s.db.rows, sel r = true → Move s a db.nextToken r (f r))
    (hnext : s.db.nextToken ≤ db.nextToken) (hnow : s.db.now ≤ db.now) : Write s a db := by
  refine .move (fun r => if sel r then f r else r) hrows (fun r hr => ?_) hnext hnow
  by_cases hsel : sel r = true
  · right
    simp only [hsel, if_true]
    exact hf r hr hsel
  · left
    simp [hsel]

theorem insertEvent_write (s : State) (a : Action) (id : OutboxId) (event : OutboxEvent) :
    Write s a (insertEvent id event s.db) := by
  unfold insertEvent
  split
  · exact .same s a rfl le_rfl le_rfl
  · rename_i hnew
    refine .insert id event rfl (fun r hr hid => hnew ?_) rfl le_rfl
    rw [Bool.or_eq_true, List.any_eq_true, List.any_eq_true]
    exact .inr ⟨r, hr, by simpa using hid⟩

theorem claimOutboxEvent_write (s : State) (a : Action) (hu : KeyUnique Row.id s.db.rows)
    (locked : OutboxId → Bool) : Write s a (claimOutboxEvent locked s.db).2 := by
  rcases claimOutboxEvent_spec hu locked with ⟨heq, -⟩ | ⟨r, hr, hc, -, -, heq⟩
  · rw [heq]
    exact .update rfl (fun x _ hsel => .exhaust hsel) le_rfl le_rfl
  · rw [heq]
    refine .move (afterClaim s.db r.id) rfl (fun x hx => ?_) (Nat.le_succ _) le_rfl
    unfold afterClaim
    split
    · rename_i hex
      exact .inr (.exhaust hex)
    · split
      · rename_i hid
        rw [hu.eq_of_mem hx hr hid]
        exact .inr (.claim hc (Nat.lt_succ_self _))
      · exact .inl rfl

theorem recordPublication_write {s : State} {i : Nat} {fault : Fault} {claim : OutboxClaim}
    {publication : Publication} (hp : s.publishers[i]? = some ⟨claim, some publication⟩) :
    Write s (.record i fault)
      (recordPublication claim (publishOutboxMessage publication) s.db).2 := by
  unfold recordPublication
  cases hresult : publishOutboxMessage publication with
  | ok u =>
    simp only
    split
    · exact .update rfl (fun r _ hsel => .publish rfl hp hresult hsel) le_rfl le_rfl
    · exact .update rfl (fun r _ hsel => .publish rfl hp hresult hsel) le_rfl le_rfl
  | error error =>
    simp only
    split
    · exact .update rfl (fun r _ hsel => .fail hsel) le_rfl le_rfl
    · exact .update rfl (fun r _ hsel => .fail hsel) le_rfl le_rfl

theorem underFault_write {s : State} {a : Action} {fault : Fault} {db : Store}
    (h : Write s a db) : Write s a (underFault fault s.db db) := by
  cases fault with
  | before => exact .same s a rfl le_rfl le_rfl
  | none => exact h
  | after => exact h

theorem outboxStep_write {s t : State} {a : Action} (hu : KeyUnique Row.id s.db.rows)
    (h : outboxStep s a = some t) : Write s a t.db := by
  cases a with
  | insert id event =>
    cases h
    exact insertEvent_write s _ id event
  | claim locked fault =>
    cases h
    exact underFault_write (claimOutboxEvent_write s _ hu locked)
  | answer i publication =>
    simp only [outboxStep] at h
    split at h
    · cases h
      exact .same s _ rfl le_rfl le_rfl
    · cases h
  | record i fault =>
    simp only [outboxStep] at h
    split at h
    · rename_i claim publication hp
      cases h
      exact underFault_write (recordPublication_write hp)
    · cases h
  | stop i =>
    cases h
    exact .same s _ rfl le_rfl le_rfl
  | elapse time =>
    cases h
    exact .same s _ rfl le_rfl (Nat.le_add_right _ _)
  | replay tenantId id =>
    cases h
    refine .update rfl (fun r _ hsel => .replay rfl ?_) le_rfl le_rfl
    simp only [decide_eq_true_eq] at hsel
    exact hsel.2.2

/-! ## The invariant -/

/-- A row: its attempts are within the limit, it has a claim exactly while it is
processing, and the checks on its times hold. -/
structure RowOk (next : Nat) (r : Row) : Prop where
  bounded : r.attempts ≤ outboxMaxAttempts
  token : r.claimToken.isSome = true ↔ r.status = .processing
  expiry : r.claimExpiresAt.isSome = true ↔ r.status = .processing
  issued : ∀ n, r.claimToken = some n → n < next
  published : r.status = .published → r.publishedAt.isSome = true
  failed : r.status = .failed → r.failedAt.isSome = true ∧ r.failureCode.isSome = true ∧
    r.failureMessage.isSome = true

/-- A publisher: while its token stands on the row, the row is the one it claimed. -/
structure PublisherOk (s : Store) (p : Publisher) : Prop where
  token : p.claim.event.claimToken = some p.claim.claimToken
  issued : p.claim.claimToken < s.nextToken
  current : ∀ r ∈ s.rows, r.id = p.claim.event.id → r.claimToken = some p.claim.claimToken →
    r = p.claim.event

structure Inv (s : State) : Prop where
  ids : KeyUnique Row.id s.db.rows
  rows : ∀ r ∈ s.db.rows, RowOk s.db.nextToken r
  publishers : ∀ p ∈ s.publishers, PublisherOk s.db p

theorem RowOk.mono {n m : Nat} {r : Row} (h : RowOk n r) (hm : n ≤ m) : RowOk m r :=
  { h with issued := fun k hk => Nat.lt_of_lt_of_le (h.issued k hk) hm }

theorem outboxFailureStatus_cases (attempts : Nat) (code : FailureCode) :
    outboxFailureStatus attempts code = .failed ∨ outboxFailureStatus attempts code = .queued := by
  unfold outboxFailureStatus
  split
  · exact .inl rfl
  · exact .inr rfl

section
variable {s : State} {a : Action} {next : Nat} {r r' : Row}

theorem Move.id (h : Move s a next r r') : r'.id = r.id := by
  cases h <;> rfl

theorem Move.event (h : Move s a next r r') : r'.event = r.event := by
  cases h <;> rfl

theorem RowOk.move {n : Nat} (h : RowOk n r) (hm : Move s a next r r') : RowOk next r' := by
  cases hm with
  | exhaust =>
    exact ⟨h.bounded, by simp [exhausted], by simp [exhausted], by simp [exhausted],
      by simp [exhausted], by simp [exhausted]⟩
  | claim hc hnext =>
    refine ⟨(isClaimable_iff.mp hc).1, by simp [claimed], by simp [claimed], fun n hn => ?_,
      by simp [claimed], by simp [claimed]⟩
    cases hn
    exact hnext
  | publish =>
    exact ⟨h.bounded, by simp [markedPublished], by simp [markedPublished],
      by simp [markedPublished], by simp [markedPublished], by simp [markedPublished]⟩
  | @fail claim error hheld =>
    rcases outboxFailureStatus_cases claim.event.attempts error.code with hst | hst
    · exact ⟨h.bounded, by simp [markedFailed, hst], by simp [markedFailed, hst],
        by simp [markedFailed], by simp [markedFailed, hst], by simp [markedFailed, hst]⟩
    · exact ⟨h.bounded, by simp [markedFailed, hst], by simp [markedFailed, hst],
        by simp [markedFailed], by simp [markedFailed, hst], by simp [markedFailed, hst]⟩
  | replay ha hfailed =>
    -- a replay does not touch the claim, but a failed row has none
    have htoken : r.claimToken = none := by
      cases htok : r.claimToken with
      | none => rfl
      | some n =>
        have := h.token.mp (by rw [htok]; rfl)
        rw [hfailed] at this
        cases this
    have hexpiry : r.claimExpiresAt = none := by
      cases hex : r.claimExpiresAt with
      | none => rfl
      | some n =>
        have := h.expiry.mp (by rw [hex]; rfl)
        rw [hfailed] at this
        cases this
    exact ⟨Nat.zero_le _, by simp [replayed, htoken], by simp [replayed, hexpiry],
      by simp [replayed, htoken], by simp [replayed], by simp [replayed]⟩

/-- A row that moved has no claim, or a new one. -/
theorem Move.token {n : Nat} (h : RowOk n r) (hm : Move s a next r r') :
    r'.claimToken = none ∨ r'.claimToken = some s.db.nextToken := by
  cases hm with
  | exhaust => exact .inl rfl
  | claim => exact .inr rfl
  | publish => exact .inl rfl
  | fail => exact .inl rfl
  | replay ha hfailed =>
    left
    show r.claimToken = none
    by_contra htok
    have := h.token.mp (Option.isSome_iff_ne_none.mpr htok)
    rw [hfailed] at this
    cases this

/-- A published row does not move. -/
theorem Move.unpublished (hm : Move s a next r r') : r.status ≠ .published := by
  intro hst
  cases hm with
  | exhaust h => simp [isExhausted_iff, hst] at h
  | claim h => simp [isClaimable_iff, hst] at h
  | publish ha hp hok h => simp [isHeld_iff, hst] at h
  | fail h => simp [isHeld_iff, hst] at h
  | replay ha h => simp [hst] at h

def Action.isReplay : Action → Bool
  | .replay _ _ => true
  | _ => false

/-- A failed row moves only when an operator replays it. -/
theorem Move.unfailed (hm : Move s a next r r') (ha : a.isReplay = false) :
    r.status ≠ .failed := by
  intro hst
  cases hm with
  | exhaust h => simp [isExhausted_iff, hst] at h
  | claim h => simp [isClaimable_iff, hst] at h
  | publish ha hp hok h => simp [isHeld_iff, hst] at h
  | fail h => simp [isHeld_iff, hst] at h
  | replay hr h =>
    subst hr
    cases ha

end

theorem publishOutboxMessage_ok {publication : Publication}
    (h : publishOutboxMessage publication = .ok ()) : publication = .confirmed (.ack false) := by
  cases publication with
  | confirmed confirmation =>
    cases confirmation with
    | ack returned =>
      cases returned with
      | false => rfl
      | true => cases h
    | nack => cases h
    | notRequested => cases h
  | _ => cases h

/-! ## Steps keep the invariant -/

section
variable {s t : State} {a : Action}

/-- What becomes of a row in one step. -/
theorem Write.follows {db : Store} (hw : Write s a db) {r : Row} (hr : r ∈ s.db.rows) :
    r ∈ db.rows ∨ ∃ r' ∈ db.rows, Move s a db.nextToken r r' := by
  cases hw with
  | move f hrows hf =>
    have hmem : f r ∈ db.rows := by
      rw [hrows]
      exact List.mem_map_of_mem hr
    rcases hf r hr with heq | hmove
    · rw [heq] at hmem
      exact .inl hmem
    · exact .inr ⟨f r, hmem, hmove⟩
  | insert id event hrows =>
    left
    rw [hrows]
    exact List.mem_append_left _ hr

/-- Where a row comes from. -/
theorem Write.origin {db : Store} (hw : Write s a db) {r' : Row} (hr' : r' ∈ db.rows) :
    r' ∈ s.db.rows ∨ (∃ r ∈ s.db.rows, Move s a db.nextToken r r') ∨
      ∃ id event, r' = newRow s.db.now id event ∧ ∀ r ∈ s.db.rows, r.id ≠ id := by
  cases hw with
  | move f hrows hf =>
    rw [hrows] at hr'
    obtain ⟨r, hr, rfl⟩ := List.mem_map.mp hr'
    rcases hf r hr with heq | hmove
    · left
      rw [heq]
      exact hr
    · exact .inr (.inl ⟨r, hr, hmove⟩)
  | insert id event hrows hid =>
    rw [hrows] at hr'
    rcases List.mem_append.mp hr' with hr | hr
    · exact .inl hr
    · exact .inr (.inr ⟨id, event, List.mem_singleton.mp hr, hid⟩)

theorem Write.next_le {db : Store} (hw : Write s a db) : s.db.nextToken ≤ db.nextToken := by
  cases hw with
  | move f hrows hf hnext => exact hnext
  | insert id event hrows hid hnext => exact hnext.le

theorem Write.now_le {db : Store} (hw : Write s a db) : s.db.now ≤ db.now := by
  cases hw with
  | move f hrows hf hnext hnow => exact hnow
  | insert id event hrows hid hnext hnow => exact hnow

theorem newRow_ok (next now : Nat) (id : OutboxId) (event : OutboxEvent) :
    RowOk next (newRow now id event) :=
  ⟨Nat.zero_le _, by simp [newRow], by simp [newRow], by simp [newRow], by simp [newRow],
    by simp [newRow]⟩

theorem Write.ids {db : Store} (hw : Write s a db) (hu : KeyUnique Row.id s.db.rows) :
    KeyUnique Row.id db.rows := by
  cases hw with
  | move f hrows hf =>
    rw [hrows]
    unfold KeyUnique at *
    rw [List.map_map]
    have hsame : s.db.rows.map (Row.id ∘ f) = s.db.rows.map Row.id := by
      refine List.map_congr_left fun r hr => ?_
      rcases hf r hr with heq | hmove
      · rw [Function.comp_apply, heq]
      · exact hmove.id
    rw [hsame]
    exact hu
  | insert id event hrows hid =>
    rw [hrows]
    exact hu.append_singleton hid

theorem Write.rowsOk {db : Store} (hw : Write s a db)
    (h : ∀ r ∈ s.db.rows, RowOk s.db.nextToken r) : ∀ r ∈ db.rows, RowOk db.nextToken r := by
  intro r' hr'
  rcases hw.origin hr' with hr | ⟨r, hr, hmove⟩ | ⟨id, event, rfl, -⟩
  · exact (h r' hr).mono hw.next_le
  · exact (h r hr).move hmove
  · exact newRow_ok _ _ _ _

/-- The row under a token that was issued did not move. -/
theorem Write.old_token {db : Store} (hw : Write s a db)
    (h : ∀ r ∈ s.db.rows, RowOk s.db.nextToken r) {r' : Row} (hr' : r' ∈ db.rows) {n : Nat}
    (hn : n < s.db.nextToken) (htoken : r'.claimToken = some n) : r' ∈ s.db.rows := by
  rcases hw.origin hr' with hr | ⟨r, hr, hmove⟩ | ⟨id, event, rfl, -⟩
  · exact hr
  · rcases hmove.token (h r hr) with hnone | hnew
    · rw [hnone] at htoken
      cases htoken
    · rw [hnew] at htoken
      cases htoken
      exact absurd hn (Nat.lt_irrefl _)
  · cases htoken

theorem PublisherOk.write {db : Store} (hw : Write s a db)
    (h : ∀ r ∈ s.db.rows, RowOk s.db.nextToken r) {p : Publisher} (hp : PublisherOk s.db p) :
    PublisherOk db p where
  token := hp.token
  issued := Nat.lt_of_lt_of_le hp.issued hw.next_le
  current r hr hid htoken :=
    hp.current r (hw.old_token h hr hp.issued htoken) hid htoken

/-- A new claim: its token is the next one, and its row is the one in the table. -/
theorem claimed_row (hu : KeyUnique Row.id s.db.rows) {locked : OutboxId → Bool}
    {claim : OutboxClaim} (h : (claimOutboxEvent locked s.db).1 = some claim) :
    claim.claimToken = s.db.nextToken ∧ claim.event.claimToken = some s.db.nextToken ∧
      (claimOutboxEvent locked s.db).2.nextToken = s.db.nextToken + 1 ∧
      ∀ x ∈ (claimOutboxEvent locked s.db).2.rows, x.id = claim.event.id → x = claim.event := by
  rcases claimOutboxEvent_spec hu locked with ⟨heq, -⟩ | ⟨r, hr, hc, -, -, heq⟩
  · rw [heq] at h
    cases h
  · rw [heq] at h ⊢
    cases h
    refine ⟨rfl, rfl, rfl, fun x hx hid => ?_⟩
    obtain ⟨y, hy, rfl⟩ := List.mem_map.mp hx
    have hsame : (afterClaim s.db r.id y).id = y.id := by
      unfold afterClaim
      split
      · rfl
      · split
        · rfl
        · rfl
    rw [hsame] at hid
    rw [hu.eq_of_mem hy hr hid]
    unfold afterClaim
    rw [not_isExhausted hc]
    exact if_pos rfl

/-- The publisher of a new claim. -/
theorem claimed_publisherOk (hu : KeyUnique Row.id s.db.rows) {locked : OutboxId → Bool}
    {claim : OutboxClaim} (h : (claimOutboxEvent locked s.db).1 = some claim) :
    PublisherOk (claimOutboxEvent locked s.db).2 ⟨claim, none⟩ := by
  obtain ⟨htoken, hevent, hnext, hrow⟩ := claimed_row hu h
  refine ⟨?_, ?_, fun x hx hid _ => hrow x hx hid⟩
  · rw [hevent, htoken]
  · show claim.claimToken < _
    rw [hnext, htoken]
    exact Nat.lt_succ_self _

theorem Inv.step (h : Inv s) (hs : outboxStep s a = some t) : Inv t := by
  have hw := outboxStep_write h.ids hs
  refine ⟨hw.ids h.ids, hw.rowsOk h.rows, ?_⟩
  have hold : ∀ p, PublisherOk s.db p → PublisherOk t.db p := fun p hp => hp.write hw h.rows
  cases a with
  | insert id event =>
    cases hs
    exact fun p hp => hold p (h.publishers p hp)
  | claim locked fault =>
    cases hs
    cases fault with
    | none =>
      intro p hp
      rcases List.mem_append.mp hp with hp | hp
      · exact hold p (h.publishers p hp)
      · obtain ⟨claim, hclaim, rfl⟩ := List.mem_map.mp hp
        exact claimed_publisherOk h.ids (Option.mem_toList.mp hclaim)
    | before => exact fun p hp => hold p (h.publishers p hp)
    | after => exact fun p hp => hold p (h.publishers p hp)
  | answer i publication =>
    simp only [outboxStep] at hs
    split at hs
    · rename_i claim hget
      cases hs
      intro p hp
      rcases List.mem_or_eq_of_mem_set hp with hp | rfl
      · exact hold p (h.publishers p hp)
      · -- the claim is the one it had
        have hclaim := h.publishers _ (List.mem_of_getElem? hget)
        exact ⟨hclaim.token, hclaim.issued, hclaim.current⟩
    · cases hs
  | record i fault =>
    simp only [outboxStep] at hs
    split at hs
    · cases hs
      exact fun p hp => hold p (h.publishers p (List.mem_of_mem_eraseIdx hp))
    · cases hs
  | stop i =>
    cases hs
    exact fun p hp => hold p (h.publishers p (List.mem_of_mem_eraseIdx hp))
  | elapse time =>
    cases hs
    exact fun p hp => hold p (h.publishers p hp)
  | replay tenantId id =>
    cases hs
    exact fun p hp => hold p (h.publishers p hp)

theorem Inv.reach {ok : State → Action → Prop} (h : Inv s) (hr : Reach outboxStep ok s t) :
    Inv t :=
  hr.invariant h fun _ _ _ hi _ hs => hi.step hs

end

/-- The same event under the same id. -/
def SameEvent (r r' : Row) : Prop := r'.id = r.id ∧ r'.event = r.event

/-- The event of a row, which no step of its publishers changes. -/
theorem event_kept {s t : State} (h : Inv s) (hr : Reach outboxStep (fun _ _ => True) s t) :
    Evolves SameEvent s.db.rows t.db.rows := by
  have hrefl : ∀ r, SameEvent r r := fun _ => ⟨rfl, rfl⟩
  have htrans : ∀ a b c, SameEvent a b → SameEvent b c → SameEvent a c :=
    fun _ _ _ hab hbc => ⟨hbc.1.trans hab.1, hbc.2.trans hab.2⟩
  refine hr.relates (I := Inv) (R := fun v w => Evolves SameEvent v.db.rows w.db.rows) h
    (fun _ _ _ hi _ hs => hi.step hs) (fun v => .refl hrefl _)
    (fun _ _ _ huv hvw => Evolves.trans htrans huv hvw) fun v a w hi _ hs r hmem => ?_
  rcases (outboxStep_write hi.ids hs).follows hmem with hsame | ⟨r', hr', hmove⟩
  · exact ⟨r, hsame, hrefl r⟩
  · exact ⟨r', hr', hmove.id, hmove.event⟩

/-! ## The protocol -/

/-- A publisher whose claim expired, or whose row stands under another claim or
none. -/
def Stale (s : Store) (p : Publisher) : Prop :=
  (∀ t, p.claim.event.claimExpiresAt = some t → t ≤ s.now) ∨
    ∀ r ∈ s.rows, r.id = p.claim.event.id → r.claimToken ≠ some p.claim.claimToken

/-- The time a row waits for has passed. -/
def Due (now : Nat) (r : Row) : Prop :=
  (r.status = .queued → r.availableAt ≤ now) ∧
    (r.status = .processing → claimExpired now r = true)

section
variable {s t : State} {a : Action}

/-- A stale publisher holds no row. -/
theorem Stale.not_held {p : Publisher} (hp : PublisherOk s.db p) (h : Stale s.db p) :
    ∀ r ∈ s.db.rows, isHeld s.db.now p.claim r = false := by
  intro r hr
  rw [← Bool.not_eq_true, isHeld_iff]
  rintro ⟨hid, -, htoken, t, ht, hlive⟩
  rcases h with hexpired | hother
  · rw [hp.current r hr hid htoken] at ht
    have := hexpired t ht
    omega
  · exact hother r hr hid htoken

/-- What it records is lost. -/
theorem Stale.record {i : Nat} {fault : Fault} {p : Publisher} (hi : Inv s)
    (hget : s.publishers[i]? = some p) (h : Stale s.db p)
    (hs : outboxStep s (.record i fault) = some t) : t.db = s.db := by
  have hnone := h.not_held (hi.publishers p (List.mem_of_getElem? hget))
  simp only [outboxStep, hget] at hs
  split at hs
  · rename_i claim publication heq
    cases heq
    cases hs
    have hsame : (recordPublication claim (publishOutboxMessage publication) s.db).2 = s.db := by
      unfold recordPublication
      cases publishOutboxMessage publication with
      | ok u =>
        simp only [updateWhere_eq_self hnone]
        split
        · rfl
        · rfl
      | error error =>
        simp only [updateWhere_eq_self hnone]
        split
        · rfl
        · rfl
    rw [hsame]
    cases fault with
    | none => rfl
    | before => rfl
    | after => rfl
  · cases hs

/-- A claim that was lost stays lost. -/
theorem Stale.step {p : Publisher} (hi : Inv s) (hissued : p.claim.claimToken < s.db.nextToken)
    (h : Stale s.db p) (hs : outboxStep s a = some t) : Stale t.db p := by
  have hw := outboxStep_write hi.ids hs
  rcases h with hexpired | hother
  · exact .inl fun u hu => (hexpired u hu).trans hw.now_le
  · exact .inr fun r hr hid htoken =>
      hother r (hw.old_token hi.rows hr hissued htoken) hid htoken

theorem Stale.reach {p : Publisher} (hi : Inv s) (hissued : p.claim.claimToken < s.db.nextToken)
    (h : Stale s.db p) (hr : Reach outboxStep (fun _ _ => True) s t) : Stale t.db p := by
  have hall : Inv t ∧ p.claim.claimToken < t.db.nextToken ∧ Stale t.db p :=
    hr.invariant (I := fun v => Inv v ∧ p.claim.claimToken < v.db.nextToken ∧ Stale v.db p)
      ⟨hi, hissued, h⟩ fun v b w hv _ hs =>
        ⟨hv.1.step hs, Nat.lt_of_lt_of_le hv.2.1 (outboxStep_write hv.1.ids hs).next_le,
          hv.2.2.step hv.1 hv.2.1 hs⟩
  exact hall.2.2

/-- Taking a row over makes its other publishers stale. -/
theorem claim_takes_over {locked : OutboxId → Bool} {claim : OutboxClaim} (hi : Inv s)
    (hclaim : (claimOutboxEvent locked s.db).1 = some claim) {p : Publisher}
    (hp : p ∈ s.publishers) (hid : p.claim.event.id = claim.event.id) :
    Stale (claimOutboxEvent locked s.db).2 p := by
  obtain ⟨-, hevent, -, hrow⟩ := claimed_row hi.ids hclaim
  refine .inr fun x hx hxid htoken => ?_
  rw [hrow x hx (hxid.trans hid), hevent] at htoken
  have hissued := (hi.publishers p hp).issued
  rw [← Option.some.inj htoken] at hissued
  exact Nat.lt_irrefl _ hissued

/-- A row that is published was published before, or its publisher holds it and has
its routed acknowledgement. -/
theorem published_origin (hi : Inv s) (hs : outboxStep s a = some t) {r' : Row}
    (hr' : r' ∈ t.db.rows) (hst : r'.status = .published) :
    r' ∈ s.db.rows ∨ ∃ i fault claim r, a = .record i fault ∧
      s.publishers[i]? = some ⟨claim, some (.confirmed (.ack false))⟩ ∧ r ∈ s.db.rows ∧
      r.id = r'.id ∧ isHeld s.db.now claim r = true := by
  rcases (outboxStep_write hi.ids hs).origin hr' with hr | ⟨r, hr, hmove⟩ | ⟨id, event, rfl, -⟩
  · exact .inl hr
  · right
    cases hmove with
    | exhaust => cases hst
    | claim => cases hst
    | @publish i fault claim publication ha hp hok hheld =>
      rw [publishOutboxMessage_ok hok] at hp
      exact ⟨i, fault, claim, r, ha, hp, hr, rfl, hheld⟩
    | @fail claim error hheld =>
      rcases outboxFailureStatus_cases claim.event.attempts error.code with h | h
      · rw [show (markedFailed s.db.now claim.event.attempts error r).status = .failed from h]
          at hst
        cases hst
      · rw [show (markedFailed s.db.now claim.event.attempts error r).status = .queued from h]
          at hst
        cases hst
    | replay => cases hst
  · cases hst

/-- An open row whose time has come fails with the next claim, or the next claim that
can lock it takes it or an older one. -/
theorem due_row (hi : Inv s) {r : Row} (hr : r ∈ s.db.rows) (hp : r.status ≠ .published)
    (hf : r.status ≠ .failed) (hdue : Due s.db.now r) :
    (∀ locked, ∃ r' ∈ (claimOutboxEvent locked s.db).2.rows, r'.id = r.id ∧
      r'.status = .failed) ∨
    isClaimable s.db.now r = true ∧ ∀ locked, locked r.id = false →
      ∃ claim, (claimOutboxEvent locked s.db).1 = some claim ∧
        locked claim.event.id = false ∧ claim.event.createdAt ≤ r.createdAt := by
  have hopen : r.status = .queued ∨ r.status = .processing := by
    cases hst : r.status with
    | queued => exact .inl rfl
    | processing => exact .inr rfl
    | published => exact absurd hst hp
    | failed => exact absurd hst hf
  by_cases hmax : outboxMaxAttempts ≤ r.attempts
  · left
    intro locked
    have hex : isExhausted s.db.now r = true :=
      isExhausted_iff.mpr ⟨hmax, hopen.imp_right fun hst => ⟨hst, hdue.2 hst⟩⟩
    rcases claimOutboxEvent_spec hi.ids locked with ⟨heq, -⟩ | ⟨x, hx, hc, -, -, heq⟩
    · rw [heq]
      exact ⟨exhausted s.db.now r, mem_updateWhere_of_pos hr hex, rfl, rfl⟩
    · rw [heq]
      refine ⟨afterClaim s.db x.id r, List.mem_map_of_mem hr, ?_, ?_⟩
      · rw [afterClaim, if_pos hex]
        rfl
      · rw [afterClaim, if_pos hex]
        rfl
  · right
    have hc : isClaimable s.db.now r = true := by
      refine isClaimable_iff.mpr ⟨Nat.lt_of_not_le hmax, ?_⟩
      rcases hopen with hst | hst
      · exact .inl ⟨hst, hdue.1 hst⟩
      · exact .inr ⟨hst, hdue.2 hst⟩
    refine ⟨hc, fun locked hfree => ?_⟩
    rcases claimOutboxEvent_spec hi.ids locked with ⟨-, hnone⟩ | ⟨x, hx, hxc, hxl, hold, heq⟩
    · have := hnone r hr hc
      rw [hfree] at this
      cases this
    · rw [heq]
      exact ⟨_, rfl, hxl, hold r hr hc hfree⟩

end

/-- What the publishers rely on. -/
structure OutboxProtocol (s : State) : Prop where
  bounded : ∀ r ∈ s.db.rows, r.attempts ≤ outboxMaxAttempts
  claims : ∀ r ∈ s.db.rows, (r.claimToken.isSome = true ↔ r.status = .processing) ∧
    (r.claimExpiresAt.isSome = true ↔ r.status = .processing)
  stale : ∀ i p fault t, s.publishers[i]? = some p → Stale s.db p →
    outboxStep s (.record i fault) = some t → t.db = s.db
  takeover : ∀ locked claim, (claimOutboxEvent locked s.db).1 = some claim →
    ∀ p ∈ s.publishers, p.claim.event.id = claim.event.id →
      Stale (claimOutboxEvent locked s.db).2 p
  acknowledged : ∀ a t, outboxStep s a = some t → ∀ r' ∈ t.db.rows, r'.status = .published →
    r' ∈ s.db.rows ∨ ∃ i fault claim r, a = .record i fault ∧
      s.publishers[i]? = some ⟨claim, some (.confirmed (.ack false))⟩ ∧ r ∈ s.db.rows ∧
      r.id = r'.id ∧ isHeld s.db.now claim r = true
  live : ∀ r ∈ s.db.rows, r.status ≠ .published → r.status ≠ .failed → Due s.db.now r →
    (∀ locked, ∃ r' ∈ (claimOutboxEvent locked s.db).2.rows, r'.id = r.id ∧
      r'.status = .failed) ∨
    isClaimable s.db.now r = true ∧ ∀ locked, locked r.id = false →
      ∃ claim, (claimOutboxEvent locked s.db).1 = some claim ∧
        locked claim.event.id = false ∧ claim.event.createdAt ≤ r.createdAt

theorem Inv.protocol {s : State} (h : Inv s) : OutboxProtocol s where
  bounded r hr := (h.rows r hr).bounded
  claims r hr := ⟨(h.rows r hr).token, (h.rows r hr).expiry⟩
  stale _ _ _ _ hget hstale hs := hstale.record h hget hs
  takeover _ _ hclaim _ hp hid := claim_takes_over h hclaim hp hid
  acknowledged _ _ hs _ hr' hst := published_origin h hs hr' hst
  live _ hr hp hf hdue := due_row h hr hp hf hdue

/-- The rows a database starts with. -/
structure Seeded (r : Row) : Prop where
  status : r.status = .queued ∨ r.status = .published ∧ r.publishedAt.isSome = true
  attempts : r.attempts ≤ 1
  token : r.claimToken = none
  expiry : r.claimExpiresAt = none

/-- No publisher has claimed anything yet. -/
structure Start (s : State) : Prop where
  publishers : s.publishers = []
  ids : KeyUnique Row.id s.db.rows
  rows : ∀ r ∈ s.db.rows, Seeded r

theorem Seeded.ok {r : Row} (h : Seeded r) (next : Nat) : RowOk next r := by
  have hbound : r.attempts ≤ outboxMaxAttempts := h.attempts.trans (by decide)
  rcases h.status with hst | ⟨hst, hpub⟩
  · exact ⟨hbound, by simp [hst, h.token], by simp [hst, h.expiry], by simp [h.token],
      by simp [hst], by simp [hst]⟩
  · exact ⟨hbound, by simp [hst, h.token], by simp [hst, h.expiry], by simp [h.token],
      fun _ => hpub, by simp [hst]⟩

theorem Start.inv {s : State} (h : Start s) : Inv s where
  ids := h.ids
  rows r hr := (h.rows r hr).ok _
  publishers p hp := by
    rw [h.publishers] at hp
    cases hp

/-- Rows that no permitted step moves are there for ever. -/
theorem absorbing {ok : State → Action → Prop} {P : Row → Prop} {s t : State} (h : Inv s)
    (hP : ∀ s a next r r', ok s a → Move s a next r r' → ¬ P r)
    (hr : Reach outboxStep ok s t) : ∀ r ∈ s.db.rows, P r → r ∈ t.db.rows := by
  intro r hmem hp
  have hall : Inv t ∧ r ∈ t.db.rows :=
    hr.invariant (I := fun v => Inv v ∧ r ∈ v.db.rows) ⟨h, hmem⟩ fun v b w hv hok hs => by
      refine ⟨hv.1.step hs, ?_⟩
      rcases (outboxStep_write hv.1.ids hs).follows hv.2 with hsame | ⟨r', -, hmove⟩
      · exact hsame
      · exact absurd hp (hP _ _ _ _ _ hok hmove)
  exact hall.2

/-- The outbox, in every state that publishers, failures and operators reach:
attempts stay within the limit; a row has a claim exactly while it is processing;
a publisher that lost its claim changes nothing, and never gets the claim back; a
row is published only with the routed acknowledgement of the publisher that holds
it; and an open row whose time has come is claimed or failed. Published rows stay,
and failed ones until an operator replays them. -/
theorem outbox_machine (s₀ s : State) (h₀ : Start s₀)
    (h : Reach outboxStep (fun _ _ => True) s₀ s) :
    OutboxProtocol s ∧
    (∀ t p, p ∈ s.publishers → Stale s.db p → Reach outboxStep (fun _ _ => True) s t →
      Stale t.db p) ∧
    (∀ t, Reach outboxStep (fun _ _ => True) s t →
      ∀ r ∈ s.db.rows, r.status = .published → r ∈ t.db.rows) ∧
    ∀ t, Reach outboxStep (fun _ a => a.isReplay = false) s t →
      ∀ r ∈ s.db.rows, r.status = .failed → r ∈ t.db.rows := by
  have hi : Inv s := h₀.inv.reach h
  refine ⟨hi.protocol, fun t p hp hstale hr => ?_, fun t hr => ?_, fun t hr => ?_⟩
  · exact hstale.reach hi (hi.publishers p hp).issued hr
  · exact absorbing hi (fun _ _ _ _ _ _ hmove => hmove.unpublished) hr
  · exact absorbing hi (fun _ _ _ _ _ hok hmove => hmove.unfailed hok) hr

/-! Two publishers: the claim of the first expires, the second takes the row over and
publishes it. -/

def sampleEvent : OutboxEvent := ⟨1, 7, ⟨1, .authorize ⟨1, 9⟩⟩, 1000⟩

def sampleStart : State := ⟨⟨[], 0, 0⟩, []⟩

def sampleActions : List Action :=
  [.insert 7 sampleEvent, .claim (fun _ => false) .none, .elapse (31 * second),
    .claim (fun _ => false) .none, .answer 0 (.confirmed (.ack false)),
    .answer 1 (.confirmed (.ack false)), .record 0 .none, .record 0 .none]

theorem outbox_machine_sample : ∃ s, run outboxStep sampleStart sampleActions = some s ∧
    s.db.rows.map (fun r => (r.status, r.attempts)) = [(.published, 2)] ∧
    OutboxProtocol s := by
  have hrun : (run outboxStep sampleStart sampleActions).isSome = true := by decide
  obtain ⟨s, hs⟩ := Option.isSome_iff_exists.mp hrun
  have hstart : Start sampleStart := ⟨rfl, KeyUnique.nil _, by simp [sampleStart]⟩
  have hrows : (run outboxStep sampleStart sampleActions).map
      (fun s => s.db.rows.map fun r => (r.status, r.attempts)) = some [(.published, 2)] := by
    decide
  rw [hs] at hrows
  exact ⟨s, hs, Option.some.inj hrows,
    (outbox_machine sampleStart s hstart (reach_of_run hs)).1⟩

end CommercePlayground.Outbox
