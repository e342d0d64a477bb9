/-
CommercePlayground.Checkout.ConsumeTheorems — inventory operations as their
caller sees them.

A failed operation changes nothing, a repeated one moves no stock, and a
consume consumes every reservation it names. As long as the consume requests
of an order name all its reservations, these are consumed together
(`Inventory.Uniform`), so the outcome is everything or nothing, and
`consume_inventory_attempt` accepts it.
-/
import CommercePlayground.Checkout.Flow
import CommercePlayground.Inventory.OutcomeTheorems
import CommercePlayground.Inventory.LedgerTheorems

namespace CommercePlayground.Checkout

open Lib Inventory

/-! ## Failed operations -/

theorem serve_reserve_failed {db : Db} {q : ReserveQuery}
    (h : (Call.serve db (.reserve q)).1.isSuccess = false) :
    (Call.serve db (.reserve q)).2 = db := by
  simp only [Call.serve] at h ⊢
  cases hr : Inventory.reserve q db with
  | error e => rfl
  | ok r =>
    obtain ⟨out, db'⟩ := r
    rw [hr] at h
    cases out with
    | some o => cases h
    | none =>
      -- no stock row has enough: the transaction commits without a write
      obtain ⟨⟨rid, token⟩, -, hr⟩ := bind_ok hr
      dsimp only at hr
      unfold reserveTx at hr
      split at hr
      · cases hr
      · obtain ⟨-, -, hr⟩ := bind_ok hr
        split at hr
        · obtain ⟨_, -, hr⟩ := bind_ok hr
          cases hr
        · split at hr
          · cases hr
            rfl
          · obtain ⟨_, -, hr⟩ := bind_ok hr
            obtain ⟨_, -, hr⟩ := bind_ok hr
            cases hr

theorem serve_release_failed {db : Db} {q : ReleaseBody}
    (h : (Call.serve db (.release q)).1.isSuccess = false) :
    (Call.serve db (.release q)).2 = db := by
  simp only [Call.serve] at h ⊢
  cases hr : Inventory.release q db with
  | error e => rfl
  | ok r =>
    obtain ⟨out, db'⟩ := r
    rw [hr] at h
    cases out with
    | some o => cases h
    | none =>
      obtain ⟨⟨rid, token⟩, -, hr⟩ := bind_ok hr
      obtain ⟨-, -, hr⟩ := bind_ok hr
      split at hr
      · cases hr
        rfl
      · obtain ⟨_, -, hr⟩ := bind_ok hr
        cases hr

theorem serve_consume_failed {db : Db} {q : ConsumeBody}
    (h : (Call.serve db (.consume q)).1.isSuccess = false) :
    (Call.serve db (.consume q)).2 = db := by
  simp only [Call.serve] at h ⊢
  cases hr : Inventory.consume q db with
  | error e => rfl
  | ok r =>
    rw [hr] at h
    cases h

/-! ## The caller's check -/

/-- The request of a consume, with its reservations in the order `consume`
sorts them into. -/
structure SentFor (order : PendingOrder) (rs : List InventoryReservation)
    (fence : CheckoutFence) (q : ConsumeBody) : Prop where
  tenantId : q.tenantId = order.tenantId
  checkoutRequestId : q.checkoutRequestId = some fence.generation.requestId
  checkoutLeaseToken : q.checkoutLeaseToken = some fence.generation.token
  reservations : q.reservations.Perm (consumeBody order rs fence).reservations

theorem SentFor.requested {order : PendingOrder} {rs : List InventoryReservation}
    {fence : CheckoutFence} {q : ConsumeBody} (h : SentFor order rs fence q) :
    requested q = (rs.map (·.quantity)).sum := by
  have hsum := (h.reservations.map (·.quantity)).sum_eq
  simpa [Inventory.requested, consumeBody, Function.comp_def] using hsum

theorem SentFor.length {order : PendingOrder} {rs : List InventoryReservation}
    {fence : CheckoutFence} {q : ConsumeBody} (h : SentFor order rs fence q) :
    q.reservations.length = rs.length := by
  simpa [consumeBody] using h.reservations.length_eq

theorem SentFor.mem {order : PendingOrder} {rs : List InventoryReservation}
    {fence : CheckoutFence} {q : ConsumeBody} (h : SentFor order rs fence q)
    {c : ConsumeReservation} (hc : c ∈ q.reservations) :
    ∃ r ∈ rs, r.reservationId = c.reservationId := by
  have hmem := h.reservations.mem_iff.mp hc
  simp only [consumeBody, List.mem_map] at hmem
  obtain ⟨r, hr, rfl⟩ := hmem
  exact ⟨r, hr, rfl⟩

/-- A consume that consumed everything or nothing is accepted. -/
theorem consumeOutcome_accepts {order : PendingOrder} {rs : List InventoryReservation}
    {fence : CheckoutFence} {q : ConsumeBody} {db db' : Db} {o : ConsumeOutcome}
    (hsent : SentFor order rs fence q) (hvalid : ValidConsume q)
    (hrun : Inventory.consume q db = .ok (o, db'))
    (ho : o = ⟨0, .alreadyConsumed⟩ ∨ o = ⟨requested q, .consumed⟩) :
    consumeOutcome order rs (consumeResponse q (Inventory.consume q db)) = .ok () := by
  have hle := requested_le hvalid
  rw [hsent.requested] at hle
  rw [hrun]
  rcases ho with rfl | rfl
  · simp [consumeOutcome, consumeResponse, Response.isSuccess, quantityMatches, hsent.tenantId,
      hsent.length, Nat.not_lt.mpr hle]
  · simp [consumeOutcome, consumeResponse, Response.isSuccess, quantityMatches, hsent.tenantId,
      hsent.length, Nat.not_lt.mpr hle, hsent.requested]

/-- In a history of whole consumes, a consume changes all it names or nothing. -/
theorem consume_all_or_none {q : ConsumeBody} {db db' : Db} {o : ConsumeOutcome}
    {R : ReservationId → Prop} (hu : Uniform q.tenantId R db)
    (hnames : ∀ c ∈ q.reservations, R c.reservationId)
    (hrun : Inventory.consume q db = .ok (o, db')) :
    (o = ⟨0, .alreadyConsumed⟩ ∧ db' = db) ∨
    (o = ⟨requested q, .consumed⟩ ∧ ∀ c ∈ q.reservations,
      ¬ HasStatus db (q.tenantId, c.reservationId) .consumed ∧
        HasStatus db' (q.tenantId, c.reservationId) .consumed) := by
  have hspec := consume_spec hu.unique hrun
  have hstatus := hspec.status
  obtain ⟨n, st⟩ := o
  dsimp only at hstatus
  rcases hu.together with hall | hnone
  · obtain ⟨hzero, heq⟩ := hspec.again fun c hc => hall _ (hnames c hc)
    dsimp only at hzero
    rw [if_pos hzero] at hstatus
    exact .inl ⟨by rw [hzero, hstatus], heq⟩
  · have hfirst := hspec.first fun c hc => hnone _ (hnames c hc)
    dsimp only at hfirst
    have hpos := requested_pos hspec.valid
    rw [if_neg (by omega)] at hstatus
    refine .inr ⟨?_, fun c hc => ⟨hnone _ (hnames c hc), hspec.all c hc⟩⟩
    rw [hfirst, hstatus]

/-! ## Inventory operations -/

/-- A reservation still has the status it had. -/
def SameStatus (db db' : Db) (key : TenantId × ReservationId) : Prop :=
  ∀ st, HasStatus db key st → HasStatus db' key st

/-- The order of the two reservations. -/
def sampleHolder : PendingOrder := ⟨9, 1, 1, 1, 1, 1, [], 500, 0, 0, 500, none⟩

/-- Both reservations. -/
def sampleBoth : ConsumeBody :=
  ⟨1, some ⟨1, 1⟩, some 7, [⟨.raw 1, 1, 3, none⟩, ⟨.raw 2, 1, 2, none⟩]⟩

/-- Both reservations, as their caller knows them. -/
def sampleReservations : List InventoryReservation :=
  [⟨.raw 1, 1, 3, none⟩, ⟨.raw 2, 1, 2, none⟩]

/-- The requests that make them. -/
def sampleReserves : List Inventory.Action :=
  [.reserve ⟨1, .raw 1, 1, 3, false, some ⟨1, 1⟩, some 7⟩,
    .reserve ⟨1, .raw 2, 1, 2, false, some ⟨1, 1⟩, some 7⟩]

/-- Both are held. -/
def sampleReserved : Db :=
  (run Inventory.step Inventory.sampleStart sampleReserves).getD Inventory.sampleStart

/-- The row of a reservation is not as it was. -/
def Changed (db db' : Db) (key : TenantId × ReservationId) : Prop :=
  ∃ r ∈ db.inventory.reservations, reservationKey r = key ∧ r ∉ db'.inventory.reservations

/-- The first of them is consumed on its own. -/
def sampleMixed : Db :=
  committed sampleReserved
    (Inventory.consume ⟨1, some ⟨1, 1⟩, some 7, [⟨.raw 1, 1, 3, none⟩]⟩ sampleReserved)

end CommercePlayground.Checkout
