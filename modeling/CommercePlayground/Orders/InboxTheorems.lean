/-
CommercePlayground.Orders.InboxTheorems — the orders inbox.

`attempts` of a row rises with every claim, so a statement that names an older
number finds no row; completed and dead-lettered rows stay. Two invariants carry
the rest. A message is behind its row (the row is done, or has had an attempt
with the message's number), or it is still in the queue and nobody is about to
settle it. And a row that is not done has such a message: the confirmed retry
with the next number when a retry is scheduled. So no delivery that is acked
takes the last message of its event with it.
-/
import CommercePlayground.Orders.Consumer

namespace CommercePlayground.Orders

open Lib

/-! ## Rows -/

def rowKey (r : InboxRow) : TenantId × EventId := (r.tenantId, r.eventId)

def OrderMessage.key (m : OrderMessage) : TenantId × EventId := (m.tenantId, m.eventId)

def InboxClaim.key (c : InboxClaim) : TenantId × EventId := (c.tenantId, c.eventId)

/-- The row of an event. -/
def rowOf (s : Inbox) (k : TenantId × EventId) : Option InboxRow :=
  s.rows.find? fun r => decide (rowKey r = k)

/-- `attempts` of an event, none before its first claim. -/
def attemptsOf (s : Inbox) (k : TenantId × EventId) : Nat := (rowOf s k).elim 0 InboxRow.attempts

/-- A row that is done. -/
def InboxRow.Done (r : InboxRow) : Prop := r.status = .completed ∨ r.status = .deadLettered

theorem isRow_iff {t : TenantId} {e : EventId} {r : InboxRow} :
    isRow t e r = true ↔ rowKey r = (t, e) := by
  simp [isRow, rowKey]

theorem rowOf_eq (s : Inbox) (t : TenantId) (e : EventId) :
    rowOf s (t, e) = s.rows.find? (isRow t e) := by
  have hsame : isRow t e = fun r => decide (rowKey r = (t, e)) := by
    funext r
    rw [Bool.eq_iff_iff, isRow_iff, decide_eq_true_eq]
  rw [hsame]
  rfl

theorem rowOf_key {s : Inbox} {k : TenantId × EventId} {r : InboxRow} (h : rowOf s k = some r) :
    r ∈ s.rows ∧ rowKey r = k := by
  obtain ⟨hr, hk⟩ := find?_some_spec h
  exact ⟨hr, by simpa using hk⟩

theorem rowOf_of_mem {s : Inbox} (hu : KeyUnique rowKey s.rows) {r : InboxRow}
    (hr : r ∈ s.rows) : rowOf s (rowKey r) = some r :=
  hu.find?_eq_some hr

/-- The rows after an update that keeps their keys. -/
theorem rowOf_update {s : Inbox} {sel : InboxRow → Bool} {f : InboxRow → InboxRow}
    (hf : ∀ r, rowKey (f r) = rowKey r) (k : TenantId × EventId) :
    rowOf { s with rows := updateWhere sel f s.rows } k =
      (rowOf s k).map fun r => if sel r then f r else r :=
  find?_updateWhere fun r _ _ => by rw [hf r]

/-- What a transaction keeps: no row is lost, no attempt taken back, and what is
done stays as it is. -/
structure Kept (s u : Inbox) : Prop where
  keys : KeyUnique rowKey s.rows → KeyUnique rowKey u.rows
  row : ∀ k r, rowOf s k = some r →
    ∃ r', rowOf u k = some r' ∧ r.attempts ≤ r'.attempts ∧ (r.Done → r' = r)

theorem Kept.refl (s : Inbox) : Kept s s :=
  ⟨id, fun _ r hr => ⟨r, hr, le_rfl, fun _ => rfl⟩⟩

theorem Kept.attempts {s u : Inbox} (h : Kept s u) (k : TenantId × EventId) :
    attemptsOf s k ≤ attemptsOf u k := by
  unfold attemptsOf
  cases hr : rowOf s k with
  | none => exact Nat.zero_le _
  | some r =>
    obtain ⟨r', hr', hle, -⟩ := h.row k r hr
    rw [hr']
    exact hle

theorem Kept.update {s : Inbox} {sel : InboxRow → Bool} {f : InboxRow → InboxRow}
    (hf : ∀ r, rowKey (f r) = rowKey r) (ha : ∀ r, r.attempts ≤ (f r).attempts)
    (hd : ∀ r, rowOf s (rowKey r) = some r → sel r = true → ¬ r.Done) :
    Kept s { s with rows := updateWhere sel f s.rows } where
  keys h := h.updateWhere fun r _ _ => hf r
  row k r hr := by
    have hk := (rowOf_key hr).2
    refine ⟨if sel r then f r else r, ?_, ?_, fun hdone => ?_⟩
    · rw [rowOf_update hf, hr]
      rfl
    · split
      · exact ha r
      · exact le_rfl
    · rw [if_neg]
      exact fun hsel => hd r (hk ▸ hr) hsel hdone

/-! ## Claiming -/

theorem accepts_open {now n : Nat} {r : InboxRow} (h : accepts now n r = true) : ¬ r.Done := by
  simp only [accepts, Bool.and_eq_true, decide_eq_true_eq] at h
  exact fun hd => hd.elim h.1.1 h.1.2

theorem nextAttempts_gt (n : Nat) (r : InboxRow) :
    r.attempts < nextAttempts n r ∧ n ≤ nextAttempts n r := by
  unfold nextAttempts
  split <;> omega

/-- What a claim does to the row of its event. -/
structure ClaimSpec (t : TenantId) (e : EventId) (n : Nat) (s u : Inbox) (c : InboxClaim) :
    Prop where
  key : c.key = (t, e)
  rises : attemptsOf s (t, e) < c.attempts
  reached : n ≤ c.attempts
  row : ∃ r, rowOf u (t, e) = some r ∧ r.status = .processing ∧ r.attempts = c.attempts
  was : ∀ r, rowOf s (t, e) = some r → ¬ r.Done
  others : ∀ k, k ≠ (t, e) → rowOf u k = rowOf s k
  kept : Kept s u

theorem claim_claimed {t : TenantId} {e : EventId} {n : Nat} {s u : Inbox} {c : InboxClaim}
    (h : claim t e n s = .ok (.claimed c, u)) : ClaimSpec t e n s u c := by
  unfold claim at h
  split at h
  · cases h
  · split at h
    · rename_i hnone
      have hrow : rowOf s (t, e) = none := (rowOf_eq s t e).trans hnone
      split at h
      · cases h
      · rename_i hpos
        cases h
        have happ : ∀ k, rowOf { s with rows := s.rows ++ [newRow s t e n] } k =
            (rowOf s k).or (if (t, e) = k then some (newRow s t e n) else none) := by
          intro k
          have hk : rowKey (newRow s t e n) = (t, e) := rfl
          simp only [rowOf, List.find?_append, List.find?_singleton, hk, decide_eq_true_eq]
        refine ⟨rfl, ?_, le_rfl, ⟨newRow s t e n, ?_, rfl, rfl⟩, ?_, ?_, ?_, ?_⟩
        · rw [attemptsOf, hrow]
          exact Nat.pos_of_ne_zero hpos
        · rw [happ, hrow, if_pos rfl]
          rfl
        · intro r hr
          rw [hrow] at hr
          cases hr
        · intro k hk
          rw [happ, if_neg fun heq => hk heq.symm, Option.or_none]
        · intro hu
          refine hu.append_singleton fun r hr hk => ?_
          have hno := List.find?_eq_none.mp hrow r hr
          exact hno (decide_eq_true hk)
        · intro k r hr
          refine ⟨r, ?_, le_rfl, fun _ => rfl⟩
          rw [happ, hr]
          rfl
    · rename_i r hfind
      have hrow : rowOf s (t, e) = some r := (rowOf_eq s t e).trans hfind
      split at h
      · rename_i hacc
        split at h
        · cases h
        · cases h
          have hkey := (rowOf_key hrow).2
          have hupd : ∀ k,
              rowOf { s with rows := updateWhere (isRow t e) (claimedRow s n) s.rows } k =
                (rowOf s k).map fun r => if isRow t e r then claimedRow s n r else r :=
            rowOf_update fun _ => rfl
          have hnext := nextAttempts_gt n r
          refine ⟨rfl, ?_, hnext.2, ⟨claimedRow s n r, ?_, rfl, rfl⟩, ?_, ?_, ?_⟩
          · rw [attemptsOf, hrow]
            exact hnext.1
          · rw [hupd, hrow, Option.map_some, if_pos (isRow_iff.mpr hkey)]
          · intro r' hr'
            rw [hrow] at hr'
            cases hr'
            exact accepts_open hacc
          · intro k hk
            rw [hupd]
            cases hr' : rowOf s k with
            | none => rfl
            | some r' =>
              have hno : isRow t e r' = false := by
                by_contra hyes
                rw [Bool.not_eq_false, isRow_iff] at hyes
                exact hk ((rowOf_key hr').2.symm.trans hyes)
              rw [Option.map_some, hno]
              rfl
          · refine Kept.update (fun _ => rfl) (fun r' => (nextAttempts_gt n r').1.le) ?_
            intro r' hr' hsel
            rw [isRow_iff.mp hsel, hrow] at hr'
            cases hr'
            exact accepts_open hacc
      · unfold reread at h
        split at h <;> cases h

/-- An event that is handled: its row is done, or a retry past the incoming
number is scheduled. -/
theorem claim_handled {t : TenantId} {e : EventId} {n : Nat} {s u : Inbox}
    (h : claim t e n s = .ok (.alreadyHandled, u)) :
    u = s ∧ ∃ r, rowOf s (t, e) = some r ∧
      (r.Done ∨ r.status = .retryScheduled ∧ n ≤ r.attempts) := by
  unfold claim at h
  split at h
  · cases h
  · split at h
    · split at h <;> cases h
    · rename_i r hfind
      have hrow : rowOf s (t, e) = some r := (rowOf_eq s t e).trans hfind
      split at h
      · split at h <;> cases h
      · rename_i hacc
        unfold reread at h
        split at h <;> rename_i hst
        · cases h
          exact ⟨rfl, r, hrow, .inl (.inl hst)⟩
        · cases h
          exact ⟨rfl, r, hrow, .inl (.inr hst)⟩
        · cases h
          refine ⟨rfl, r, hrow, .inr ⟨hst, ?_⟩⟩
          simpa [accepts, hst] using hacc
        · cases h

theorem claim_inFlight {t : TenantId} {e : EventId} {n : Nat} {s u : Inbox}
    (h : claim t e n s = .ok (.inFlight, u)) : u = s := by
  unfold claim at h
  split at h
  · cases h
  · split at h
    · split at h <;> cases h
    · split at h
      · split at h <;> cases h
      · unfold reread at h
        split at h <;> cases h
        rfl

theorem claim_kept {t : TenantId} {e : EventId} {n : Nat} {s u : Inbox} {o : ClaimOutcome}
    (h : claim t e n s = .ok (o, u)) : Kept s u := by
  cases o with
  | claimed c => exact (claim_claimed h).kept
  | alreadyHandled =>
    rw [(claim_handled h).1]
    exact .refl s
  | inFlight =>
    rw [claim_inFlight h]
    exact .refl s

/-! ## Settling -/

theorem isClaimed_iff {c : InboxClaim} {r : InboxRow} : isClaimed c r = true ↔
    rowKey r = c.key ∧ r.attempts = c.attempts ∧ r.status = .processing := by
  simp only [isClaimed, Bool.and_eq_true, isRow_iff, decide_eq_true_eq]
  exact Iff.rfl

theorem isClaimed_open {c : InboxClaim} {r : InboxRow} (h : isClaimed c r = true) :
    ¬ r.Done := by
  have hst := (isClaimed_iff.mp h).2.2
  rintro (hd | hd) <;> rw [hst] at hd <;> cases hd

/-- An update of the claimed row that keeps its number. -/
theorem rowOf_claimed {s : Inbox} {c : InboxClaim} {f : InboxRow → InboxRow}
    (hf : ∀ r, rowKey (f r) = rowKey r) (k : TenantId × EventId) :
    rowOf { s with rows := updateWhere (isClaimed c) f s.rows } k =
      (rowOf s k).map fun r => if isClaimed c r then f r else r :=
  rowOf_update hf k

/-- What ending a claim does to its row. -/
structure MarkSpec (status : InboxStatus) (s u : Inbox) (c : InboxClaim) : Prop where
  was : ∃ r, rowOf s c.key = some r ∧ r.attempts = c.attempts ∧ r.status = .processing
  row : ∃ r, rowOf u c.key = some r ∧ r.attempts = c.attempts ∧ r.status = status
  others : ∀ k, k ≠ c.key → rowOf u k = rowOf s k
  kept : Kept s u

theorem mark_ok {status : InboxStatus} {operation : String} {c : InboxClaim} {s u : Inbox}
    {x : Unit} (hu : KeyUnique rowKey s.rows) (h : mark status operation c s = .ok (x, u)) :
    MarkSpec status s u c := by
  unfold mark at h
  split at h
  · cases h
  · split at h
    · rename_i hone
      cases h
      obtain ⟨r, hr, hsel⟩ := exists_of_affected_ne_zero (ne_of_eq_of_ne hone Nat.one_ne_zero)
      obtain ⟨hk, ha, hst⟩ := isClaimed_iff.mp hsel
      have hrow : rowOf s c.key = some r := hk ▸ rowOf_of_mem hu hr
      have hupd : ∀ k, rowOf { s with
          rows := updateWhere (isClaimed c)
            (fun r => { r with status := status, leaseUntil := s.now }) s.rows } k =
          (rowOf s k).map fun r =>
            if isClaimed c r then { r with status := status, leaseUntil := s.now } else r :=
        rowOf_claimed fun _ => rfl
      refine ⟨⟨r, hrow, ha, hst⟩,
        ⟨{ r with status := status, leaseUntil := s.now }, ?_, ha, rfl⟩, ?_, ?_⟩
      · rw [hupd, hrow, Option.map_some, if_pos hsel]
      · intro k hne
        rw [hupd]
        cases hr' : rowOf s k with
        | none => rfl
        | some r' =>
          rw [Option.map_some, if_neg]
          exact fun hsel' => hne ((rowOf_key hr').2.symm.trans (isClaimed_iff.mp hsel').1)
      · exact Kept.update (fun _ => rfl) (fun _ => le_rfl) fun _ _ hsel' => isClaimed_open hsel'
    · cases h

/-- Releasing a claim moves its lease only. -/
theorem releaseClaim_ok {c : InboxClaim} {s u : Inbox} {x : Unit}
    (h : releaseClaim c s = .ok (x, u)) :
    Kept s u ∧ ∀ k r', rowOf u k = some r' →
      ∃ r, rowOf s k = some r ∧ r'.status = r.status ∧ r'.attempts = r.attempts := by
  unfold releaseClaim at h
  split at h
  · cases h
  · cases h
    refine ⟨Kept.update (fun _ => rfl) (fun _ => le_rfl) fun _ _ hsel => isClaimed_open hsel, ?_⟩
    intro k r' hr'
    rw [rowOf_claimed (f := fun r => { r with leaseUntil := s.now }) fun _ => rfl] at hr'
    obtain ⟨r, hr, rfl⟩ := Option.map_eq_some_iff.mp hr'
    refine ⟨r, hr, ?_, ?_⟩
    · split <;> rfl
    · split <;> rfl

/-- Under another number than the row's, nothing is affected. -/
theorem affected_isClaimed {c : InboxClaim} {s : Inbox} (hu : KeyUnique rowKey s.rows)
    (hne : c.attempts ≠ attemptsOf s c.key) : affected (isClaimed c) s.rows = 0 := by
  refine List.countP_eq_zero.mpr fun r hr hsel => hne ?_
  obtain ⟨hk, ha, -⟩ := isClaimed_iff.mp hsel
  have hrow : rowOf s c.key = some r := hk ▸ rowOf_of_mem hu hr
  rw [attemptsOf, hrow]
  exact ha.symm

/-! ## Messages -/

/-- A message that is processed, and its body. -/
def valid (m : Message) : Option OrderMessage :=
  if m.validContext then (parse m).toOption else none

theorem parse_ok {m : Message} {b : OrderMessage} (h : parse m = .ok b) :
    m.body = some b ∧ 0 < b.attempt ∧ b.attempt ≤ maxAttempts ∧
      ∃ n, canonicalAttempt b.attempt m.header = .ok n ∧ validateMessage b m.messageId = .ok () := by
  unfold parse at h
  split at h
  · cases h
  · rename_i body hbody
    obtain ⟨n, hn, h⟩ := bind_ok h
    obtain ⟨x, hx, h⟩ := bind_ok h
    cases h
    refine ⟨hbody, ?_, ?_, n, hn, hx⟩
    · unfold canonicalAttempt at hn
      split at hn
      · cases hn
      · omega
    · unfold canonicalAttempt at hn
      split at hn
      · cases hn
      · split at hn
        · cases hn
        · omega

theorem valid_some {m : Message} {b : OrderMessage} (h : valid m = some b) :
    m.validContext = true ∧ parse m = .ok b := by
  unfold valid at h
  split at h
  · rename_i hc
    cases hp : parse m with
    | error e =>
      rw [hp] at h
      cases h
    | ok b' =>
      rw [hp] at h
      cases h
      exact ⟨hc, rfl⟩
  · cases h

/-- A republished message passes the checks its original passed. -/
theorem valid_republished {m : Message} {b : OrderMessage} {n : Nat} {confirmed : Bool}
    (h : valid m = some b) (hpos : 0 < n) (hmax : n ≤ maxAttempts) :
    valid (republished b n confirmed) = some { b with attempt := n } := by
  obtain ⟨-, hp⟩ := valid_some h
  obtain ⟨-, -, -, -, -, hv⟩ := parse_ok hp
  have hcan : canonicalAttempt n (.value n) = .ok n := by
    unfold canonicalAttempt
    rw [if_neg (by omega), if_neg (by omega)]
    simp only
    rw [if_neg (by omega), if_neg (by simp)]
  have hval : validateMessage { b with attempt := n } (some b.eventId) = .ok () := by
    unfold validateMessage at hv ⊢
    split at hv
    · cases hv
    · split at hv
      · cases hv
      · split at hv
        · cases hv
        · split at hv
          · cases hv
          · rename_i h1 h2 h3 h4
            rw [if_neg h1, if_neg h2, if_neg h3, if_neg h4]
            simp
  have hparse : parse (republished b n confirmed) = .ok { b with attempt := n } := by
    simp only [parse, republished, hcan, hval]
    rfl
  unfold valid
  rw [hparse]
  rfl

theorem valid_settle (m : Message) : valid (settle m) = valid m := rfl

end CommercePlayground.Orders
