/-
CommercePlayground.Fulfillment.ClaimTheorems — the claim machine.

Every transaction inserts one claim or moves one (`ClaimWrite`), and a move is
one of five (`ClaimMove`). The invariant `ClaimInv` follows from that, and with
it everything the deliveries rely on: completed and dead-lettered claims stay,
attempts count acquisitions up to the limit, and a lease token that lost its
row never gets it back.
-/
import CommercePlayground.Lib.Transition
import CommercePlayground.Fulfillment.Claims

namespace CommercePlayground.Fulfillment

open Lib

/-! ## What a transaction does to the claims -/

/-- The primary key of `fulfillment_processed_events`. -/
def claimKey (r : ProcessedEvent) : TenantId × Consumer × EventKey :=
  (r.tenantId, r.consumerName, r.eventKey)

theorem isClaim_iff {t : TenantId} {c : Consumer} {k : EventKey} {r : ProcessedEvent} :
    isClaim t c k r = true ↔ claimKey r = (t, c, k) := by
  simp [isClaim, claimKey]

/-- What can happen to a claim. -/
inductive ClaimMove (s : Store) (next : Nat) : ProcessedEvent → ProcessedEvent → Prop where
  | exhaust {r : ProcessedEvent} (hidle : isAbandoned s.now r = true)
      (hmax : maxClaimAttempts ≤ r.attempts) : ClaimMove s next r (exhausted r)
  | reclaim {r : ProcessedEvent} (hidle : isAbandoned s.now r = true)
      (hmax : r.attempts < maxClaimAttempts) (hnext : s.nextToken < next) :
      ClaimMove s next r (reclaimed s r)
  | renew {r : ProcessedEvent} {token : Nat} (hheld : isHeld s.now token r = true) :
      ClaimMove s next r { r with leaseUntil := some s.lease }
  | complete {r : ProcessedEvent} {token : Nat} (hheld : isHeld s.now token r = true) :
      ClaimMove s next r
        { r with status := .completed, leaseToken := none, leaseUntil := none }
  | fail {r : ProcessedEvent} {token : Nat} {permanent : Bool}
      (hstatus : r.status = .processing) (htoken : r.leaseToken = some token) :
      ClaimMove s next r (failedClaim permanent r)

/-- The claims after a transaction. -/
inductive ClaimWrite (s : Store) : List ProcessedEvent → Nat → Prop where
  | same {next : Nat} (hnext : s.nextToken ≤ next) : ClaimWrite s s.claims next
  | insert {consumer : Consumer} {key : EventKey} {event : CommerceEvent}
      (hnew : ∀ r ∈ s.claims, isClaim event.tenantId consumer key r = false) :
      ClaimWrite s (s.claims ++ [newClaim s consumer key event]) (s.nextToken + 1)
  | move {sel : ProcessedEvent → Bool} {f : ProcessedEvent → ProcessedEvent} {next : Nat}
      (hnext : s.nextToken ≤ next)
      (h : ∀ r ∈ s.claims, sel r = true → ClaimMove s next r (f r)) :
      ClaimWrite s (updateWhere sel f s.claims) next

theorem ClaimWrite.next_le {s : Store} {t : List ProcessedEvent} {next : Nat}
    (hw : ClaimWrite s t next) : s.nextToken ≤ next := by
  cases hw with
  | same hnext => exact hnext
  | insert => exact Nat.le_succ _
  | move hnext => exact hnext

theorem ClaimMove.key {s : Store} {next : Nat} {r r' : ProcessedEvent}
    (h : ClaimMove s next r r') : claimKey r' = claimKey r := by
  cases h <;> rfl

theorem updateHeld_ok {t : TenantId} {c : Consumer} {k : EventKey}
    {holds : ProcessedEvent → Bool} {f : ProcessedEvent → ProcessedEvent} {m : String}
    {s s' : Store} {u : Unit} (h : updateHeld t c k holds f m s = .ok (u, s')) :
    s' = updateClaims s (fun r => isClaim t c k r && holds r) f ∧
      affected (fun r => isClaim t c k r && holds r) s.claims = 1 := by
  unfold updateHeld at h
  simp only at h
  split at h
  · rename_i hone
    cases h
    exact ⟨rfl, hone⟩
  · cases h

theorem renewLease_write {t : TenantId} {c : Consumer} {k : EventKey} {token : Nat}
    {s s' : Store} {u : Unit} (h : renewLease t c k token s = .ok (u, s')) :
    ClaimWrite s s'.claims s'.nextToken := by
  obtain ⟨rfl, -⟩ := updateHeld_ok h
  refine .move le_rfl fun r _ hsel => ?_
  rw [Bool.and_eq_true] at hsel
  exact .renew hsel.2

theorem markCompleted_write {t : TenantId} {c : Consumer} {k : EventKey} {token : Nat}
    {s s' : Store} {u : Unit} (h : markCompleted t c k token s = .ok (u, s')) :
    ClaimWrite s s'.claims s'.nextToken := by
  obtain ⟨rfl, -⟩ := updateHeld_ok h
  refine .move le_rfl fun r _ hsel => ?_
  rw [Bool.and_eq_true] at hsel
  exact .complete hsel.2

theorem markFailed_write {t : TenantId} {c : Consumer} {k : EventKey} {token : Nat}
    {permanent : Bool} {s s' : Store} {u : Unit}
    (h : markFailed c t k token permanent s = .ok (u, s')) :
    ClaimWrite s s'.claims s'.nextToken := by
  obtain ⟨rfl, -⟩ := updateHeld_ok h
  refine .move le_rfl fun r _ hsel => ?_
  simp only [Bool.and_eq_true, decide_eq_true_eq] at hsel
  exact .fail hsel.2.1.1 hsel.2.1.2

/-! ## The invariant -/

/-- A claim: its attempts are within the limit, it has a lease exactly while it
is processing, and its token was issued. -/
structure ClaimRow (next : Nat) (r : ProcessedEvent) : Prop where
  positive : 0 < r.attempts
  bounded : r.attempts ≤ maxClaimAttempts
  failed : r.status = .failed → r.attempts < maxClaimAttempts
  leased : r.status = .processing → r.leaseUntil.isSome = true
  token : ∀ n, r.leaseToken = some n → n < next
  free : r.status ≠ .processing → r.leaseToken = none

/-- The claims of every reachable state. -/
structure ClaimInv (claims : List ProcessedEvent) (next : Nat) : Prop where
  keys : KeyUnique claimKey claims
  rows : ∀ r ∈ claims, ClaimRow next r

theorem isAbandoned_status {now : Nat} {r : ProcessedEvent} (h : isAbandoned now r = true) :
    r.status = .failed ∨ r.status = .processing := by
  simp only [isAbandoned, Bool.or_eq_true, Bool.and_eq_true, decide_eq_true_eq] at h
  exact h.imp_right And.left

theorem isHeld_iff {now token : Nat} {r : ProcessedEvent} : isHeld now token r = true ↔
    r.status = .processing ∧ r.leaseToken = some token ∧ ∃ t, r.leaseUntil = some t ∧ now < t := by
  simp only [isHeld, Bool.and_eq_true, decide_eq_true_eq, and_assoc]
  cases r.leaseUntil <;> simp

theorem ClaimRow.mono {n m : Nat} {r : ProcessedEvent} (h : ClaimRow n r) (hm : n ≤ m) :
    ClaimRow m r :=
  { h with token := fun k hk => Nat.lt_of_lt_of_le (h.token k hk) hm }

theorem ClaimRow.move {s : Store} {next : Nat} {r r' : ProcessedEvent}
    (h : ClaimRow s.nextToken r) (hm : ClaimMove s next r r') (hn : s.nextToken ≤ next) :
    ClaimRow next r' := by
  cases hm with
  | exhaust => exact ⟨h.positive, h.bounded, nofun, nofun, nofun, fun _ => rfl⟩
  | reclaim hidle hmax hnext =>
    refine ⟨Nat.succ_pos _, hmax, nofun, fun _ => rfl, ?_, fun hne => absurd rfl hne⟩
    rintro n ⟨⟩
    exact hnext
  | renew hheld =>
    have hst := (isHeld_iff.mp hheld).1
    refine ⟨h.positive, h.bounded, h.failed, fun _ => rfl, ?_, fun hne => absurd hst hne⟩
    exact fun n hk => Nat.lt_of_lt_of_le (h.token n hk) hn
  | complete => exact ⟨h.positive, h.bounded, nofun, nofun, nofun, fun _ => rfl⟩
  | @fail token permanent hstatus htoken =>
    refine ⟨h.positive, h.bounded, fun hf => ?_, fun hp => ?_, nofun, fun _ => rfl⟩
    · simp [failedClaim] at hf
      exact hf.2
    · simp only [failedClaim] at hp
      split at hp <;> cases hp

theorem ClaimInv.write {s : Store} {t : List ProcessedEvent} {next : Nat}
    (h : ClaimInv s.claims s.nextToken) (hw : ClaimWrite s t next) : ClaimInv t next := by
  cases hw with
  | same hnext => exact ⟨h.keys, fun r hr => (h.rows r hr).mono hnext⟩
  | @insert consumer key event hnew =>
    refine ⟨h.keys.append_singleton fun r hr hk => ?_, ?_⟩
    · have hkey : claimKey r = (event.tenantId, consumer, key) := hk
      have hno := hnew r hr
      rw [isClaim_iff.mpr hkey] at hno
      cases hno
    · refine forall_append_singleton (fun r hr => (h.rows r hr).mono (Nat.le_succ _)) ?_
      refine ⟨Nat.one_pos, Nat.one_le_of_lt (Nat.lt_add_one 4), nofun, fun _ => rfl, ?_, fun hne => absurd rfl hne⟩
      rintro n ⟨⟩
      exact Nat.lt_succ_self _
  | @move sel f _ hnext hmove =>
    refine ⟨h.keys.updateWhere fun r hr hsel => (hmove r hr hsel).key, fun r' hr' => ?_⟩
    obtain ⟨r, hr, rfl⟩ := mem_updateWhere.mp hr'
    split
    · rename_i hsel
      exact (h.rows r hr).move (hmove r hr hsel) hnext
    · exact (h.rows r hr).mono hnext

/-- What becomes of a claim in one transaction. -/
theorem ClaimWrite.follows {s : Store} {t : List ProcessedEvent} {next : Nat}
    (hw : ClaimWrite s t next) {r : ProcessedEvent} (hr : r ∈ s.claims) :
    r ∈ t ∨ ∃ r' ∈ t, ClaimMove s next r r' := by
  cases hw with
  | same => exact .inl hr
  | insert => exact .inl (List.mem_append_left _ hr)
  | @move sel f _ hnext hmove =>
    cases hsel : sel r with
    | false => exact .inl (mem_updateWhere_of_not hr hsel)
    | true => exact .inr ⟨f r, mem_updateWhere_of_pos hr hsel, hmove r hr hsel⟩

/-- Completed and dead-lettered claims do not move. -/
theorem ClaimMove.open {s : Store} {next : Nat} {r r' : ProcessedEvent}
    (h : ClaimMove s next r r') : r.status = .failed ∨ r.status = .processing := by
  cases h with
  | exhaust hidle => exact isAbandoned_status hidle
  | reclaim hidle => exact isAbandoned_status hidle
  | renew hheld => exact .inr (isHeld_iff.mp hheld).1
  | complete hheld => exact .inr (isHeld_iff.mp hheld).1
  | fail hstatus => exact .inr hstatus


/-! ## Acquiring -/

/-- The answers of `acquireClaim`, and what each says about the claims. -/
inductive Acquisition (s : Store) (consumer : Consumer) (key : EventKey)
    (event : CommerceEvent) : Outcome ClaimDecision → Prop where
  | exhaust {r : ProcessedEvent} (hr : r ∈ s.claims)
      (hsel : isExhausted s.now event.tenantId consumer key r = true) :
      Acquisition s consumer key event (.ok (.deadLettered,
        updateClaims { s with nextToken := s.nextToken + 1 }
          (isExhausted s.now event.tenantId consumer key) exhausted))
  | reclaim {r : ProcessedEvent} (hr : r ∈ s.claims)
      (hk : isClaim event.tenantId consumer key r = true)
      (hsel : isReclaimable s.now r = true) :
      Acquisition s consumer key event (.ok (.acquired s.nextToken,
        updateClaims { s with nextToken := s.nextToken + 1 }
          (fun r => isClaim event.tenantId consumer key r && isReclaimable s.now r)
          (reclaimed s)))
  | completed {r : ProcessedEvent} (hr : r ∈ s.claims)
      (hk : isClaim event.tenantId consumer key r = true) (hst : r.status = .completed) :
      Acquisition s consumer key event
        (.ok (.completed, { s with nextToken := s.nextToken + 1 }))
  | active {r : ProcessedEvent} {t : Nat} (hr : r ∈ s.claims)
      (hk : isClaim event.tenantId consumer key r = true) (hst : r.status = .processing)
      (huntil : r.leaseUntil = some t) (hlive : s.now < t) :
      Acquisition s consumer key event
        (.ok (.active (some t), { s with nextToken := s.nextToken + 1 }))
  | deadLettered {r : ProcessedEvent} (hr : r ∈ s.claims)
      (hk : isClaim event.tenantId consumer key r = true) (hst : r.status = .deadLettered) :
      Acquisition s consumer key event
        (.ok (.deadLettered, { s with nextToken := s.nextToken + 1 }))
  | insert (hnew : ∀ r ∈ s.claims, isClaim event.tenantId consumer key r = false)
      (horder : orderExists s event.tenantId event.orderId = true) :
      Acquisition s consumer key event (.ok (.acquired s.nextToken,
        setClaims { s with nextToken := s.nextToken + 1 }
          (s.claims ++ [newClaim s consumer key event])))
  | refuse {e : Failure} (hnew : ∀ r ∈ s.claims, isClaim event.tenantId consumer key r = false)
      (horder : orderExists s event.tenantId event.orderId = false) :
      Acquisition s consumer key event (.error e)

theorem find?_isClaim {t : TenantId} {c : Consumer} {k : EventKey} {l : List ProcessedEvent}
    {r : ProcessedEvent} (hu : KeyUnique claimKey l) (hr : r ∈ l)
    (hk : isClaim t c k r = true) : l.find? (isClaim t c k) = some r := by
  have hsame : isClaim t c k = fun r' => decide (claimKey r' = claimKey r) := by
    funext r'
    rw [isClaim_iff.mp hk, Bool.eq_iff_iff, isClaim_iff, decide_eq_true_eq]
  rw [hsame]
  exact hu.find?_eq_some hr

/-- A claim that is not to be taken over is completed, dead-lettered, or
somebody holds it. -/
theorem ClaimRow.idle {next : Nat} {r : ProcessedEvent} (h : ClaimRow next r) (now : Nat)
    (hex : maxClaimAttempts ≤ r.attempts → isAbandoned now r = false)
    (hre : isReclaimable now r = false) :
    r.status = .completed ∨ r.status = .deadLettered ∨
      r.status = .processing ∧ ∃ t, r.leaseUntil = some t ∧ now < t := by
  have hno : isAbandoned now r = false := by
    by_cases hmax : maxClaimAttempts ≤ r.attempts
    · exact hex hmax
    · simpa [isReclaimable, Nat.lt_of_not_le hmax] using hre
  cases hst : r.status with
  | completed => exact .inl rfl
  | deadLettered => exact .inr (.inl rfl)
  | failed => simp [isAbandoned, hst] at hno
  | processing =>
    obtain ⟨t, ht⟩ := Option.isSome_iff_exists.mp (h.leased hst)
    refine .inr (.inr ⟨rfl, t, ht, ?_⟩)
    simpa [isAbandoned, leaseExpired, hst, ht] using hno

/-- **Acquiring.** -/
theorem acquireClaim_spec {s : Store} (h : ClaimInv s.claims s.nextToken)
    (consumer : Consumer) (key : EventKey) (event : CommerceEvent) :
    Acquisition s consumer key event (acquireClaim consumer key event s) := by
  unfold acquireClaim
  simp only
  split
  · rename_i hany
    obtain ⟨r, hr, hsel⟩ := List.any_eq_true.mp hany
    have hk : isClaim event.tenantId consumer key r = true := by
      simp only [isExhausted, Bool.and_eq_true] at hsel
      exact hsel.1.1
    -- the row it rereads is the one it has just given up
    have hnew : (updateWhere (isExhausted s.now event.tenantId consumer key) exhausted
        s.claims).find? (isClaim event.tenantId consumer key) = some (exhausted r) := by
      rw [find?_updateWhere (f := exhausted) fun _ _ _ => rfl, find?_isClaim h.keys hr hk]
      simp [hsel]
    rw [rereadClaim, updateClaims, setClaims, hnew]
    exact .exhaust hr hsel
  · rename_i hex
    split
    · rename_i hany
      obtain ⟨r, hr, hsel⟩ := List.any_eq_true.mp hany
      rw [Bool.and_eq_true] at hsel
      exact .reclaim hr hsel.1 hsel.2
    · rename_i hre
      split
      · rename_i hany
        obtain ⟨r, hr, hk⟩ := List.any_eq_true.mp hany
        have hidle := (h.rows r hr).idle s.now
          (fun hmax => by
            by_contra hab
            exact hex (List.any_eq_true.mpr ⟨r, hr, by simp [isExhausted, hk, hmax, hab]⟩))
          (by
            by_contra hab
            exact hre (List.any_eq_true.mpr ⟨r, hr, by simp [hk, hab]⟩))
        rw [rereadClaim, find?_isClaim h.keys hr hk]
        rcases hidle with hst | hst | ⟨hst, t, ht, hlive⟩
        · simp only [hst]
          exact .completed hr hk hst
        · simp only [hst]
          exact .deadLettered hr hk hst
        · simp only [hst, ht]
          exact .active hr hk hst ht hlive
      · rename_i hnone
        have hnew : ∀ r ∈ s.claims, isClaim event.tenantId consumer key r = false := by
          intro r hr
          by_contra hk
          exact hnone (List.any_eq_true.mpr ⟨r, hr, by simpa using hk⟩)
        split
        · rename_i horder
          exact .insert hnew horder
        · rename_i horder
          exact .refuse hnew (Bool.eq_false_iff.mpr horder)

theorem acquireClaim_write {consumer : Consumer} {key : EventKey} {event : CommerceEvent}
    {s s' : Store} {d : ClaimDecision} (h : ClaimInv s.claims s.nextToken)
    (hok : acquireClaim consumer key event s = .ok (d, s')) :
    ClaimWrite s s'.claims s'.nextToken := by
  have hspec := acquireClaim_spec h consumer key event
  rw [hok] at hspec
  cases hspec with
  | exhaust =>
    refine .move (Nat.le_succ _) fun r _ hsel => ?_
    simp only [isExhausted, Bool.and_eq_true, decide_eq_true_eq] at hsel
    exact .exhaust hsel.2 hsel.1.2
  | reclaim =>
    refine .move (Nat.le_succ _) fun r _ hsel => ?_
    simp only [isReclaimable, Bool.and_eq_true, decide_eq_true_eq] at hsel
    exact .reclaim hsel.2.1 hsel.2.2 (Nat.lt_succ_self _)
  | insert hnew => exact .insert hnew
  | completed => exact .same (Nat.le_succ _)
  | active => exact .same (Nat.le_succ _)
  | deadLettered => exact .same (Nat.le_succ _)

theorem claimStep_write {s u : Store} {a : ClaimAction} (hi : ClaimInv s.claims s.nextToken)
    (h : claimStep s a = some u) : ClaimWrite s u.claims u.nextToken := by
  cases a with
  | acquire consumer key event =>
    cases h
    cases hr : acquireClaim consumer key event s with
    | error e => exact .same le_rfl
    | ok r => exact acquireClaim_write hi hr
  | renew t consumer key token =>
    cases h
    cases hr : renewLease t consumer key token s with
    | error e => exact .same le_rfl
    | ok r => exact renewLease_write hr
  | complete t consumer key token =>
    cases h
    cases hr : markCompleted t consumer key token s with
    | error e => exact .same le_rfl
    | ok r => exact markCompleted_write hr
  | fail t consumer key token permanent =>
    cases h
    cases hr : markFailed consumer t key token permanent s with
    | error e => exact .same le_rfl
    | ok r => exact markFailed_write hr
  | environment elapsed orders =>
    cases h
    exact .same le_rfl

theorem ClaimInv.step {s u : Store} {a : ClaimAction} (h : ClaimInv s.claims s.nextToken)
    (hs : claimStep s a = some u) : ClaimInv u.claims u.nextToken :=
  h.write (claimStep_write h hs)

theorem ClaimInv.reach {s₀ s : Store} (h₀ : ClaimInv s₀.claims s₀.nextToken)
    (h : Reach claimStep (fun _ _ => True) s₀ s) : ClaimInv s.claims s.nextToken :=
  h.invariant (I := fun s => ClaimInv s.claims s.nextToken) h₀ fun _ _ _ hi _ hs => hi.step hs

/-! ## The protocol -/

/-- The claim of a key. -/
def claimOf (s : Store) (k : TenantId × Consumer × EventKey) : Option ProcessedEvent :=
  s.claims.find? fun r => decide (claimKey r = k)

/-- `attempts` of a key, none before its first claim. -/
def attemptsOf (s : Store) (k : TenantId × Consumer × EventKey) : Nat :=
  (claimOf s k).elim 0 ProcessedEvent.attempts

/-- The token the claim of a key stands under. -/
def HasToken (s : Store) (k : TenantId × Consumer × EventKey) (token : Nat) : Prop :=
  ∃ r ∈ s.claims, claimKey r = k ∧ r.leaseToken = some token

/-- A lease of a key that has not expired. -/
def LiveLease (s : Store) (k : TenantId × Consumer × EventKey) (token : Nat) : Prop :=
  ∃ r ∈ s.claims, claimKey r = k ∧ isHeld s.now token r = true

def isAcquired : Outcome ClaimDecision → Bool
  | .ok (.acquired _, _) => true
  | _ => false

/-- Whether a step acquires the claim of a key. -/
def acquires (s : Store) (k : TenantId × Consumer × EventKey) : ClaimAction → Bool
  | .acquire consumer key event =>
    decide (k = (event.tenantId, consumer, key)) &&
      isAcquired (acquireClaim consumer key event s)
  | _ => false

/-- An answer of `acquireClaim` agrees with the row it leaves. An error leaves
none: the order the event names is not there to be referred to. -/
def Agrees (s : Store) (k : TenantId × Consumer × EventKey) : Outcome ClaimDecision → Prop
  | .ok (.acquired token, u) =>
    ∃ r, claimOf u k = some r ∧ r.status = .processing ∧ r.leaseToken = some token
  | .ok (.active leaseUntil, u) =>
    ∃ r t, claimOf u k = some r ∧ r.status = .processing ∧ r.leaseUntil = leaseUntil ∧
      leaseUntil = some t ∧ s.now < t
  | .ok (.completed, u) => ∃ r, claimOf u k = some r ∧ r.status = .completed
  | .ok (.deadLettered, u) => ∃ r, claimOf u k = some r ∧ r.status = .deadLettered
  | .error _ => claimOf s k = none

/-- What the deliveries rely on. -/
structure ClaimProtocol (s : Store) : Prop where
  /-- A key has one claim, tried at most `MAX_CLAIM_ATTEMPTS` times. -/
  single : KeyUnique claimKey s.claims
  bounded : ∀ k, attemptsOf s k ≤ maxClaimAttempts
  /-- `attempts` counts the acquisitions. -/
  counted : ∀ a u, claimStep s a = some u →
    ∀ k, attemptsOf u k = attemptsOf s k + if acquires s k a then 1 else 0
  /-- A completed or dead-lettered claim stays as it is. -/
  absorbing : ∀ k r, claimOf s k = some r → r.status = .completed ∨ r.status = .deadLettered →
    ∀ u, Reach claimStep (fun _ _ => True) s u → claimOf u k = some r
  /-- One lease of a key is live at a time, and a token that has lost its claim
  does not get it back. -/
  exclusive : ∀ k m n, LiveLease s k m → LiveLease s k n → m = n
  superseded : ∀ k n, n < s.nextToken → ¬ HasToken s k n →
    ∀ u, Reach claimStep (fun _ _ => True) s u → ¬ HasToken u k n
  /-- A step under another token changes nothing. -/
  fenced : ∀ t c k n, ¬ HasToken s (t, c, k) n →
    claimStep s (.renew t c k n) = some s ∧ claimStep s (.complete t c k n) = some s ∧
      ∀ permanent, claimStep s (.fail t c k n permanent) = some s
  answered : ∀ consumer key event,
    Agrees s (event.tenantId, consumer, key) (acquireClaim consumer key event s)

theorem claimOf_eq_some {s : Store} {k : TenantId × Consumer × EventKey} {r : ProcessedEvent}
    (h : ClaimInv s.claims s.nextToken) : claimOf s k = some r ↔ r ∈ s.claims ∧ claimKey r = k := by
  constructor
  · intro hr
    obtain ⟨hmem, hk⟩ := find?_some_spec hr
    exact ⟨hmem, by simpa using hk⟩
  · rintro ⟨hr, rfl⟩
    exact h.keys.find?_eq_some hr

theorem claimOf_update {s : Store} {sel : ProcessedEvent → Bool}
    {f : ProcessedEvent → ProcessedEvent} (hf : ∀ r, claimKey (f r) = claimKey r)
    (k : TenantId × Consumer × EventKey) :
    claimOf (updateClaims s sel f) k =
      (claimOf s k).map fun r => if sel r then f r else r :=
  find?_updateWhere fun r _ _ => by rw [hf r]

/-- An update that keeps `attempts` is no acquisition. -/
theorem attemptsOf_update {s : Store} {sel : ProcessedEvent → Bool}
    {f : ProcessedEvent → ProcessedEvent} (hf : ∀ r, claimKey (f r) = claimKey r)
    (ha : ∀ r, (f r).attempts = r.attempts) (k : TenantId × Consumer × EventKey) :
    attemptsOf (updateClaims s sel f) k = attemptsOf s k := by
  unfold attemptsOf
  rw [claimOf_update hf]
  cases claimOf s k with
  | none => rfl
  | some r =>
    show (if sel r then f r else r).attempts = r.attempts
    split
    · exact ha r
    · rfl

theorem attemptsOf_updateHeld {t : TenantId} {c : Consumer} {key : EventKey}
    {holds : ProcessedEvent → Bool} {f : ProcessedEvent → ProcessedEvent} {m : String}
    {s : Store} (hf : ∀ r, claimKey (f r) = claimKey r) (ha : ∀ r, (f r).attempts = r.attempts)
    (k : TenantId × Consumer × EventKey) :
    attemptsOf (committed s (updateHeld t c key holds f m s)) k = attemptsOf s k := by
  cases hr : updateHeld t c key holds f m s with
  | error e => rfl
  | ok r =>
    obtain ⟨hs, -⟩ := updateHeld_ok (u := r.1) hr
    rw [committed, hs, attemptsOf_update hf ha]

/-- Under a token the claim does not have, an update of the holder fails. -/
theorem committed_updateHeld {t : TenantId} {c : Consumer} {k : EventKey} {n : Nat}
    {holds : ProcessedEvent → Bool} {f : ProcessedEvent → ProcessedEvent} {m : String}
    {s : Store} (hno : ¬ HasToken s (t, c, k) n)
    (hholds : ∀ r, holds r = true → r.leaseToken = some n) :
    committed s (updateHeld t c k holds f m s) = s := by
  unfold updateHeld
  simp only
  split
  · rename_i hone
    obtain ⟨r, hr, hsel⟩ := exists_of_affected_ne_zero (ne_of_eq_of_ne hone Nat.one_ne_zero)
    rw [Bool.and_eq_true] at hsel
    exact absurd ⟨r, hr, isClaim_iff.mp hsel.1, hholds r hsel.2⟩ hno
  · rfl

theorem attemptsOf_acquire {s : Store} (h : ClaimInv s.claims s.nextToken)
    (consumer : Consumer) (key : EventKey) (event : CommerceEvent)
    (k : TenantId × Consumer × EventKey) :
    attemptsOf (committed s (acquireClaim consumer key event s)) k =
      attemptsOf s k + if acquires s k (.acquire consumer key event) then 1 else 0 := by
  have hspec := acquireClaim_spec h consumer key event
  rw [acquires]
  revert hspec
  generalize acquireClaim consumer key event s = answer
  intro hspec
  cases hspec with
  | exhaust hr hsel =>
    rw [committed, attemptsOf_update (f := exhausted) (fun _ => rfl) fun _ => rfl]
    simp [attemptsOf, claimOf, isAcquired]
  | @reclaim r hr hk hsel =>
    rw [committed, attemptsOf, claimOf_update (f := reclaimed s) fun _ => rfl]
    by_cases hkey : k = (event.tenantId, consumer, key)
    · subst hkey
      have hrow : claimOf s (event.tenantId, consumer, key) = some r :=
        (claimOf_eq_some h).mpr ⟨hr, isClaim_iff.mp hk⟩
      have hrow' : claimOf { s with nextToken := s.nextToken + 1 }
          (event.tenantId, consumer, key) = some r := hrow
      simp [attemptsOf, hrow, hrow', hk, hsel, reclaimed, isAcquired]
    · have hsame : claimOf { s with nextToken := s.nextToken + 1 } k = claimOf s k := rfl
      rw [hsame, attemptsOf]
      cases hrow : claimOf s k with
      | none => simp [hkey]
      | some r' =>
        have hno : isClaim event.tenantId consumer key r' = false := by
          by_contra hk'
          rw [Bool.not_eq_false, isClaim_iff] at hk'
          exact hkey (((claimOf_eq_some h).mp hrow).2.symm.trans hk')
        simp [hkey, hno]
  | completed => simp [committed, attemptsOf, claimOf, isAcquired]
  | active => simp [committed, attemptsOf, claimOf, isAcquired]
  | deadLettered => simp [committed, attemptsOf, claimOf, isAcquired]
  | insert hnew =>
    have hfind : claimOf (setClaims { s with nextToken := s.nextToken + 1 }
        (s.claims ++ [newClaim s consumer key event])) k =
        (claimOf s k).or (if k = (event.tenantId, consumer, key)
          then some (newClaim s consumer key event) else none) := by
      have hk : claimKey (newClaim s consumer key event) = (event.tenantId, consumer, key) := rfl
      simp only [claimOf, setClaims, List.find?_append, List.find?_singleton, hk,
        decide_eq_true_eq, eq_comm (a := k)]
    rw [committed, attemptsOf, hfind, attemptsOf]
    by_cases hkey : k = (event.tenantId, consumer, key)
    · have hnone : claimOf s k = none := by
        refine List.find?_eq_none.mpr fun r hr hk => ?_
        have hno := hnew r hr
        rw [isClaim_iff.mpr ((of_decide_eq_true hk).trans hkey)] at hno
        cases hno
      rw [hnone]
      simp [hkey, newClaim, isAcquired]
    · cases claimOf s k <;> simp [hkey]
  | refuse => simp [committed, isAcquired]

/-- A new token of a claim is a fresh one. -/
theorem ClaimMove.token {s : Store} {next n : Nat} {r r' : ProcessedEvent}
    (h : ClaimMove s next r r') (hn : r'.leaseToken = some n) :
    r.leaseToken = some n ∨ n = s.nextToken := by
  cases h with
  | exhaust => cases hn
  | reclaim =>
    cases hn
    exact .inr rfl
  | renew => exact .inl hn
  | complete => cases hn
  | fail => cases hn

theorem ClaimWrite.token {s : Store} {t : List ProcessedEvent} {next n : Nat}
    (hw : ClaimWrite s t next) {r' : ProcessedEvent} (hr' : r' ∈ t)
    (hn : r'.leaseToken = some n) :
    (∃ r ∈ s.claims, claimKey r = claimKey r' ∧ r.leaseToken = some n) ∨ n = s.nextToken := by
  cases hw with
  | same => exact .inl ⟨r', hr', rfl, hn⟩
  | insert =>
    rcases List.mem_append.mp hr' with hr | hnew
    · exact .inl ⟨r', hr, rfl, hn⟩
    · rw [List.mem_singleton.mp hnew] at hn
      cases hn
      exact .inr rfl
  | @move sel f _ hnext hmove =>
    obtain ⟨r, hr, rfl⟩ := mem_updateWhere.mp hr'
    split at hn
    · rename_i hsel
      have hm := hmove r hr hsel
      rw [if_pos hsel]
      exact (hm.token hn).imp_left fun h => ⟨r, hr, hm.key.symm, h⟩
    · rename_i hsel
      rw [if_neg hsel]
      exact .inl ⟨r, hr, rfl, hn⟩

/-- A claim that is done is done for ever. -/
theorem ClaimInv.absorbing {s u : Store} {k : TenantId × Consumer × EventKey}
    {r : ProcessedEvent} (h : ClaimInv s.claims s.nextToken) (hr : claimOf s k = some r)
    (hst : r.status = .completed ∨ r.status = .deadLettered)
    (hu : Reach claimStep (fun _ _ => True) s u) : claimOf u k = some r := by
  obtain ⟨hmem, hk⟩ := (claimOf_eq_some h).mp hr
  have hkept : r ∈ u.claims := by
    refine (hu.invariant (I := fun u => ClaimInv u.claims u.nextToken ∧ r ∈ u.claims)
      ⟨h, hmem⟩ fun t a v hi _ hs => ⟨hi.1.step hs, ?_⟩).2
    rcases (claimStep_write hi.1 hs).follows hi.2 with hkept | ⟨r', -, hmove⟩
    · exact hkept
    · rcases hmove.open with ho | ho <;> rcases hst with hst | hst <;> rw [hst] at ho <;> cases ho
  exact (claimOf_eq_some (h.reach hu)).mpr ⟨hkept, hk⟩

/-- A token that has lost its claim does not get it back. -/
theorem ClaimInv.superseded {s u : Store} {k : TenantId × Consumer × EventKey} {n : Nat}
    (h : ClaimInv s.claims s.nextToken) (hn : n < s.nextToken) (hno : ¬ HasToken s k n)
    (hu : Reach claimStep (fun _ _ => True) s u) : ¬ HasToken u k n := by
  refine (hu.invariant
    (I := fun u => ClaimInv u.claims u.nextToken ∧ n < u.nextToken ∧ ¬ HasToken u k n)
    ⟨h, hn, hno⟩ fun t a v hi _ hs => ?_).2.2
  have hw := claimStep_write hi.1 hs
  refine ⟨hi.1.step hs, Nat.lt_of_lt_of_le hi.2.1 hw.next_le, ?_⟩
  rintro ⟨r', hr', hk, htoken⟩
  rcases hw.token hr' htoken with ⟨r, hr, hkr, hold⟩ | hfresh
  · exact hi.2.2 ⟨r, hr, hkr.trans hk, hold⟩
  · exact Nat.lt_irrefl _ (hfresh ▸ hi.2.1)

theorem ClaimInv.fenced {s : Store} {t : TenantId} {c : Consumer} {k : EventKey} {n : Nat}
    (hno : ¬ HasToken s (t, c, k) n) :
    claimStep s (.renew t c k n) = some s ∧ claimStep s (.complete t c k n) = some s ∧
      ∀ permanent, claimStep s (.fail t c k n permanent) = some s := by
  refine ⟨?_, ?_, fun permanent => ?_⟩
  · exact congrArg some (committed_updateHeld hno fun r hr => (isHeld_iff.mp hr).2.1)
  · exact congrArg some (committed_updateHeld hno fun r hr => (isHeld_iff.mp hr).2.1)
  · refine congrArg some (committed_updateHeld hno fun r hr => ?_)
    simp only [Bool.and_eq_true, decide_eq_true_eq] at hr
    exact hr.1.2

theorem ClaimInv.answered {s : Store} (h : ClaimInv s.claims s.nextToken) (consumer : Consumer)
    (key : EventKey) (event : CommerceEvent) :
    Agrees s (event.tenantId, consumer, key) (acquireClaim consumer key event s) := by
  have hspec := acquireClaim_spec h consumer key event
  have hfind : ∀ r ∈ s.claims, isClaim event.tenantId consumer key r = true →
      claimOf s (event.tenantId, consumer, key) = some r := fun r hr hk =>
    (claimOf_eq_some h).mpr ⟨hr, isClaim_iff.mp hk⟩
  revert hspec
  generalize acquireClaim consumer key event s = answer
  intro hspec
  cases hspec with
  | @exhaust r hr hsel =>
    have hk : isClaim event.tenantId consumer key r = true := by
      simp only [isExhausted, Bool.and_eq_true] at hsel
      exact hsel.1.1
    refine ⟨exhausted r, ?_, rfl⟩
    rw [claimOf_update (f := exhausted) fun _ => rfl]
    exact (congrArg _ (hfind r hr hk)).trans (by simp [hsel])
  | @reclaim r hr hk hsel =>
    refine ⟨reclaimed s r, ?_, rfl, rfl⟩
    rw [claimOf_update (f := reclaimed s) fun _ => rfl]
    exact (congrArg _ (hfind r hr hk)).trans (by simp [hk, hsel])
  | completed hr hk hst => exact ⟨_, hfind _ hr hk, hst⟩
  | active hr hk hst huntil hlive => exact ⟨_, _, hfind _ hr hk, hst, huntil, rfl, hlive⟩
  | deadLettered hr hk hst => exact ⟨_, hfind _ hr hk, hst⟩
  | insert hnew =>
    refine ⟨newClaim s consumer key event, ?_, rfl, rfl⟩
    have hwrite : ClaimWrite s (s.claims ++ [newClaim s consumer key event]) (s.nextToken + 1) :=
      .insert hnew
    exact (h.write hwrite).keys.find?_eq_some (List.mem_append_right _ (List.mem_singleton_self _))
  | refuse hnew =>
    refine List.find?_eq_none.mpr fun r hr hk => ?_
    have hno := hnew r hr
    rw [isClaim_iff.mpr (of_decide_eq_true hk)] at hno
    cases hno

theorem ClaimInv.attemptsOf_le {s : Store} (h : ClaimInv s.claims s.nextToken)
    (k : TenantId × Consumer × EventKey) : attemptsOf s k ≤ maxClaimAttempts := by
  unfold attemptsOf
  cases hr : claimOf s k with
  | none => exact Nat.zero_le _
  | some r => exact (h.rows r ((claimOf_eq_some h).mp hr).1).bounded

/-- **The claim machine.** From an empty table, whatever deliveries acquire,
renew, complete and fail in whatever order and however time passes, the claims
keep the protocol. -/
theorem fulfillment_claims_follow_protocol {s₀ s : Store} (h₀ : s₀.claims = [])
    (hs : Reach claimStep (fun _ _ => True) s₀ s) : ClaimProtocol s := by
  have hempty : ClaimInv s₀.claims s₀.nextToken := by
    rw [h₀]
    exact ⟨KeyUnique.nil _, fun _ hr => absurd hr List.not_mem_nil⟩
  have h := hempty.reach hs
  refine ⟨h.keys, h.attemptsOf_le, ?_, fun k r hr hst u hu => h.absorbing hr hst hu, ?_,
    fun k n hn hno u hu => h.superseded hn hno hu, fun t c k n hno => ClaimInv.fenced hno,
    h.answered⟩
  · intro a u hstep k
    cases a with
    | acquire consumer key event =>
      rw [← Option.some.inj hstep]
      exact attemptsOf_acquire h consumer key event k
    | renew t c key token =>
      cases hstep
      refine attemptsOf_updateHeld ?_ ?_ k <;> intro r <;> rfl
    | complete t c key token =>
      cases hstep
      refine attemptsOf_updateHeld ?_ ?_ k <;> intro r <;> rfl
    | fail t c key token permanent =>
      cases hstep
      refine attemptsOf_updateHeld ?_ ?_ k <;> intro r <;> rfl
    | environment elapsed orders =>
      cases hstep
      rfl
  · rintro k m n ⟨r, hr, hk, hm⟩ ⟨r', hr', hk', hn⟩
    cases h.keys.eq_of_mem hr hr' (hk.trans hk'.symm)
    have htoken := (isHeld_iff.mp hm).2.1.symm.trans (isHeld_iff.mp hn).2.1
    exact Option.some.inj htoken

/-! A claim that expires, is taken over, and is completed under the new token. -/

def sampleClaims : Store where
  now := 0
  nextToken := 0
  claimLeaseSeconds := 30
  orders := [⟨1, 1, .paid, 1, 100, 0⟩]
  payments := []
  locations := []
  shipments := []
  claims := []
  effects := []

def sampleEvent : CommerceEvent where
  eventKey := .raw 1
  tenantId := 1
  eventType := .orderPaid
  orderId := 1
  currency := some 1
  totalMinor := 100
  paymentStatus := .blank
  paymentId := none

def sampleTakeover : List ClaimAction :=
  let key := sampleEvent.claimKey .orders
  [.acquire .orders key sampleEvent, .environment (31 * second) sampleClaims.orders,
    .acquire .orders key sampleEvent, .renew 1 .orders key 0, .complete 1 .orders key 1]

theorem fulfillment_claims_follow_protocol_sample :
    ∃ s, run claimStep sampleClaims sampleTakeover = some s ∧
      (s.claims.map fun r => (r.status, r.attempts)) = [(.completed, 2)] ∧ ClaimProtocol s := by
  have hrun : (run claimStep sampleClaims sampleTakeover).map
      (fun s => s.claims.map fun r => (r.status, r.attempts)) = some [(.completed, 2)] := by
    decide
  obtain ⟨s, hs, hrows⟩ := Option.map_eq_some_iff.mp hrun
  exact ⟨s, hs, hrows, fulfillment_claims_follow_protocol rfl (reach_of_run hs)⟩

end CommercePlayground.Fulfillment
