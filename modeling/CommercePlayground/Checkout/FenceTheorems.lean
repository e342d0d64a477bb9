/-
CommercePlayground.Checkout.FenceTheorems — the three checks of a checkout
fence agree.

The ownership rule of a checkout operation is written out in three places:
`lockCheckoutFence` in the transaction of a writer, `assertCheckoutFence`
around a remote call, and inventory's `lockCurrentCheckoutFence`, which only
sees the generation. The first two state the rule in a different order; the
third asks for a claim token that the others do not mention, and it is the
lease CHECK of the schema that supplies it.

* `lockCheckoutFence_iff_assert`: the writer's check and the read agree.
* `fence_checks_agree`: and inventory accepts what they accept.
-/
import CommercePlayground.Checkout.FencingTheorems

namespace CommercePlayground.Checkout

open Lib

/-! ## The schema -/

/-- The primary key of `checkout_payment_reconciliations`. -/
def reconciliationKey (r : Reconciliation) : TenantId × RequestId := (r.tenantId, r.requestId)

/-- The constraints of the three fenced tables: primary keys, and the CHECKs
on leases and claims. -/
structure SchemaConstraints (db : Db) : Prop where
  attemptKeys : KeyUnique attemptKey db.checkout.attempts
  attemptChecks : ∀ a ∈ db.checkout.attempts, a.outcomeChecks = true ∧ a.leaseCheck = true
  reconciliationKeys : KeyUnique reconciliationKey db.checkout.reconciliations
  reconciliationChecks : ∀ r ∈ db.checkout.reconciliations, r.leaseChecks = true
  taskIds : KeyUnique (·.id) db.checkout.tasks
  taskChecks : ∀ t ∈ db.checkout.tasks, t.claimCheck = true

/-! ## Checks as propositions -/

theorem require_iff {c : Bool} {e : ApiError} : require c e = .ok () ↔ c = true := by
  cases c <;> simp [require]

/-- Two checks in a row. -/
theorem require_bind_iff {c d : Bool} {e f : ApiError} :
    (require c e >>= fun _ => require d f) = .ok () ↔ c = true ∧ d = true := by
  cases c <;> cases d <;> simp [require, bind, Except.bind]

/-- The read of a fence changes nothing. -/
theorem require_read_iff {c : Bool} {e : ApiError} {db : Db} :
    (require c e >>= fun _ => (pure ((), db) : ApiResult (Unit × Db))) = .ok ((), db) ↔
      c = true := by
  cases c <;> simp [require, bind, Except.bind, pure, Except.pure]

/-- A live claim is a claim on its generation. -/
theorem isClaim_processing {now w : Nat} {g : Generation} {r : Reconciliation}
    (h : isClaim now g w r = true) :
    isReconciliationOf g r = true ∧ isProcessing now r = true := by
  simp only [isClaim, Bool.and_eq_true] at h
  exact ⟨h.1.1, h.2⟩

/-! ## The writer's check and the read -/

/-- `lock_checkout_fence` and `assert_checkout_fence` accept the same fences. -/
theorem lockCheckoutFence_iff_assert (db : Db) (fence : CheckoutFence) :
    lockCheckoutFence db fence = .ok () ↔ assertCheckoutFence fence db = .ok ((), db) := by
  cases fence with
  | attempt lease =>
    unfold lockCheckoutFence assertCheckoutFence
    rw [require_iff, require_read_iff]
    rfl
  | paymentReconciliation t r parent worker =>
    unfold lockCheckoutFence assertCheckoutFence
    simp only
    rw [require_bind_iff, require_read_iff, Bool.and_eq_true]
    -- with the worker's claim in hand, a pending parent is open for the lock too
    constructor
    · rintro ⟨hparent, hclaim⟩
      rw [hclaim] at hparent
      exact ⟨hclaim, hparent⟩
    · rintro ⟨hclaim, hparent⟩
      have hclaim' : db.checkout.reconciliations.any (isClaim db.now ⟨t, r, parent⟩ worker) =
        true := hclaim
      rw [hclaim']
      exact ⟨hparent, rfl⟩
  | compensation t r token id claim =>
    unfold lockCheckoutFence assertCheckoutFence
    simp only
    rw [require_bind_iff, require_read_iff, Bool.and_eq_true, and_comm]
    rfl

/-! ## Inventory -/

/-- An open parent whose pending state is held by a processing reconciliation
is current for inventory: the lease CHECK gives that row its token. -/
theorem lockCurrentCheckoutFence_of_parent {db : Db} (hdb : SchemaConstraints db)
    {g : Generation} {p : Bool} (hopen : parentOpen db g p = true)
    (hheld : p = true → ∃ r ∈ db.checkout.reconciliations,
      isReconciliationOf g r = true ∧ isProcessing db.now r = true) :
    Inventory.lockCurrentCheckoutFence db g.tenantId g.requestId g.token = .ok () := by
  obtain ⟨a, ha, hp⟩ := List.any_eq_true.mp hopen
  simp only [Bool.and_eq_true] at hp
  obtain ⟨hgen, hstatus⟩ := hp
  obtain ⟨ht, hr, htok⟩ := isGeneration_iff.mp hgen
  have hcurrent : Inventory.isCurrentFence db g.tenantId g.requestId g.token a = true := by
    unfold Inventory.isCurrentFence
    simp only [ht, hr, htok, and_self, decide_true, Bool.true_and]
    unfold isOpenParent at hstatus
    cases hs : a.status with
    | started => simpa [hs, live] using hstatus
    | failed => rfl
    | pending =>
      rw [hs] at hstatus
      obtain ⟨r, hmem, hof, hproc⟩ := hheld hstatus
      refine List.any_eq_true.mpr ⟨r, hmem, ?_⟩
      simp only [isReconciliationOf, decide_eq_true_eq] at hof
      simp only [isProcessing, live, Bool.and_eq_true, decide_eq_true_eq] at hproc
      have hlease := hdb.reconciliationChecks r hmem
      simp only [Reconciliation.leaseChecks, hproc.1, decide_true, Bool.and_eq_true,
        beq_iff_eq] at hlease
      simp [Inventory.holdsPending, hof, ht, hr, htok, hproc.1, hlease.1, hproc.2]
    | paid => simp [hs] at hstatus
    | degraded => simp [hs] at hstatus
  unfold Inventory.lockCurrentCheckoutFence
  rw [if_pos (List.any_eq_true.mpr ⟨a, ha, hcurrent⟩)]

/-- The live lease of a handler is an open parent. -/
theorem parentOpen_of_lease {db : Db} {g : Generation}
    (h : db.checkout.attempts.any (isLiveLease db.now g) = true) :
    parentOpen db g false = true := by
  obtain ⟨a, ha, hp⟩ := List.any_eq_true.mp h
  simp only [isLiveLease, Bool.and_eq_true, decide_eq_true_eq] at hp
  refine List.any_eq_true.mpr ⟨a, ha, ?_⟩
  simp [hp.1.1, isOpenParent, hp.1.2, hp.2]

/-- Inventory accepts the generation of every fence that checkout locks. -/
theorem lockCheckoutFence_inventory {db : Db} (hdb : SchemaConstraints db)
    {fence : CheckoutFence} (h : lockCheckoutFence db fence = .ok ()) :
    Inventory.lockCurrentCheckoutFence db fence.generation.tenantId
      fence.generation.requestId fence.generation.token = .ok () := by
  cases fence with
  | attempt lease =>
    exact lockCurrentCheckoutFence_of_parent hdb (parentOpen_of_lease (require_iff.mp h))
      (fun hp => by cases hp)
  | paymentReconciliation t r parent worker =>
    obtain ⟨hparent, hclaim⟩ := require_bind_iff.mp h
    refine lockCurrentCheckoutFence_of_parent hdb hparent fun _ => ?_
    obtain ⟨rec, hrec, hp⟩ := List.any_eq_true.mp hclaim
    exact ⟨rec, hrec, isClaim_processing hp⟩
  | compensation t r token id claim =>
    obtain ⟨hparent, -⟩ := require_bind_iff.mp h
    refine lockCurrentCheckoutFence_of_parent hdb hparent fun hp => ?_
    obtain ⟨rec, hrec, hp⟩ := List.any_eq_true.mp hp
    simp only [Bool.and_eq_true] at hp
    exact ⟨rec, hrec, hp⟩

/-- **The three fence checks agree.** In a database that meets the schema's
constraints, `lock_checkout_fence` accepts a fence of any kind if and only if
`assert_checkout_fence` does, and then inventory's
`lock_current_checkout_fence` accepts the fence's tenant, request and token:
an operation checkout believes it owns is not refused by inventory. -/
theorem fence_checks_agree {db : Db} (hdb : SchemaConstraints db) (fence : CheckoutFence) :
    (lockCheckoutFence db fence = .ok () ↔ assertCheckoutFence fence db = .ok ((), db)) ∧
    (lockCheckoutFence db fence = .ok () ∨ assertCheckoutFence fence db = .ok ((), db) →
      Inventory.lockCurrentCheckoutFence db fence.generation.tenantId
        fence.generation.requestId fence.generation.token = .ok ()) := by
  refine ⟨lockCheckoutFence_iff_assert db fence, ?_⟩
  rintro (hlock | hassert)
  · exact lockCheckoutFence_inventory hdb hlock
  · exact lockCheckoutFence_inventory hdb ((lockCheckoutFence_iff_assert db fence).mpr hassert)

/-- A pending checkout: its reconciliation is being processed, and a worker
holds the release of one of its reservations. -/
def sampleHeld : Db :=
  { sampleStart.db with
    now := 100
    checkout := { sampleStart.db.checkout with
      attempts := [⟨1, ⟨1, 1⟩, sampleInput, .pending, some 7, some ⟨.pending, 7, none⟩, none,
        none, none, 40, none, 90⟩]
      reconciliations := [⟨1, ⟨1, 1⟩, 7, .authorize ⟨1, 1⟩, none, 7, 0, 1, .card, .processing,
        40, 1, 90, some 41, some 200⟩]
      tasks := [⟨50, 1, 7, ⟨.inventory (.raw 3), 40⟩, .inventoryRelease (.raw 3) 2 1, .processing,
        1, 90, some 42, some 200, ⟨1, 1⟩, 40, none, none, 90⟩] } }

theorem sampleHeld_constraints : SchemaConstraints sampleHeld where
  attemptKeys := by decide
  attemptChecks := by decide
  reconciliationKeys := by decide
  reconciliationChecks := by decide
  taskIds := by decide
  taskChecks := by decide

/-- The worker's fence on that release passes all three checks. -/
theorem fence_checks_agree_held :
    lockCheckoutFence sampleHeld (.compensation 1 ⟨1, 1⟩ 40 50 42) = .ok () ∧
    assertCheckoutFence (.compensation 1 ⟨1, 1⟩ 40 50 42) sampleHeld = .ok ((), sampleHeld) ∧
    Inventory.lockCurrentCheckoutFence sampleHeld 1 ⟨1, 1⟩ 40 = .ok () := by
  have hlock : lockCheckoutFence sampleHeld (.compensation 1 ⟨1, 1⟩ 40 50 42) = .ok () := rfl
  obtain ⟨hiff, hinventory⟩ := fence_checks_agree sampleHeld_constraints
    (.compensation 1 ⟨1, 1⟩ 40 50 42)
  exact ⟨hlock, hiff.mp hlock, hinventory (.inl hlock)⟩

end CommercePlayground.Checkout
