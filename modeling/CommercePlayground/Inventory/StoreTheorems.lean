/-
CommercePlayground.Inventory.StoreTheorems — what each inventory transaction
can do to the tables.

`Effect K` lists the five row changes of the service: a new hold, a renewal,
a re-acquisition, a release and a consumption, the last one only for the
reservation keys in `K`. Every committed transaction is a sequence of
effects, and every transaction of a request handler starts with the fence.
-/
import CommercePlayground.Inventory.Store

namespace CommercePlayground.Inventory

open Lib

/-! ## Field lemmas -/

section Fields

variable (db : Db)

@[simp] theorem setStock_stock (t) : (setStock db t).inventory.stock = t := rfl
@[simp] theorem setStock_reservations (t) :
    (setStock db t).inventory.reservations = db.inventory.reservations := rfl
@[simp] theorem setReservations_stock (t) :
    (setReservations db t).inventory.stock = db.inventory.stock := rfl
@[simp] theorem setReservations_reservations (t) :
    (setReservations db t).inventory.reservations = t := rfl
@[simp] theorem setStock_now (t) : (setStock db t).now = db.now := rfl
@[simp] theorem setReservations_now (t) : (setReservations db t).now = db.now := rfl

end Fields

/-! ## Writes -/

theorem updateStock_ok {db db' : Db} {sel : Stock → Bool} {f : Stock → Stock}
    (h : updateStock db sel f = .ok db') :
    db' = setStock db (updateWhere sel f db.inventory.stock) := by
  unfold updateStock at h
  dsimp only at h
  split at h
  · cases h
    rfl
  · cases h

theorem updateReservations_ok {db db' : Db} {sel : Reservation → Bool}
    {f : Reservation → Reservation} (h : updateReservations db sel f = .ok db') :
    db' = setReservations db (updateWhere sel f db.inventory.reservations) := by
  unfold updateReservations at h
  dsimp only at h
  split at h
  · cases h
    rfl
  · cases h

theorem insertReservation_ok {db db' : Db} {r : Reservation}
    (h : insertReservation db r = .ok db') :
    db' = setReservations db (db.inventory.reservations ++ [r]) ∧
      ∀ x ∈ db.inventory.reservations, reservationKey x ≠ reservationKey r := by
  unfold insertReservation at h
  split at h
  · cases h
  · rename_i hkey
    split at h
    · cases h
    · refine ⟨by cases h; rfl, fun x hx heq => hkey ?_⟩
      exact List.mem_map.mpr ⟨x, hx, heq⟩

theorem moveStock_ok {db db' : Db} {r : Reservation} {guard : Stock → Bool}
    {f : Stock → Stock} {e : OperationFailure} (h : moveStock db r guard f e = .ok db') :
    db' = setStock db (updateWhere (fun s => isStockOf r s && guard s) f db.inventory.stock) ∧
      ∃ s ∈ db.inventory.stock, isStockOf r s = true ∧ guard s = true := by
  unfold moveStock at h
  dsimp only at h
  split at h
  · rename_i haff
    obtain ⟨s, hs, hsel⟩ := exists_of_affected_ne_zero (by rw [haff]; decide)
    rw [Bool.and_eq_true] at hsel
    exact ⟨updateStock_ok h, s, hs, hsel⟩
  · cases h

/-- The selection of `moveReservation`. -/
def ownedIn (tenantId : TenantId) (id : ReservationId) (status : ReservationStatus)
    (requestId : RequestId) (r : Reservation) : Bool :=
  isReservation tenantId id r && decide (r.status = status ∧ r.ownerRequestId = some requestId)

theorem moveReservation_ok {db db' : Db} {t : TenantId} {id : ReservationId}
    {st : ReservationStatus} {rid : RequestId} {f : Reservation → Reservation}
    (h : moveReservation db t id st rid f = .ok db') :
    db' = setReservations db (updateWhere (ownedIn t id st rid) f db.inventory.reservations) := by
  unfold moveReservation at h
  dsimp only at h
  split at h
  · exact updateReservations_ok h
  · cases h

theorem isReservation_iff {t : TenantId} {id : ReservationId} {r : Reservation} :
    isReservation t id r = true ↔ reservationKey r = (t, id) := by
  simp [isReservation, reservationKey]

theorem lockReservation_some {db : Db} {t : TenantId} {id : ReservationId} {r : Reservation}
    {s : Stock} (h : lockReservation db t id = some (r, s)) :
    r ∈ db.inventory.reservations ∧ reservationKey r = (t, id) ∧ s ∈ db.inventory.stock ∧
      isStockOf r s = true := by
  unfold lockReservation at h
  rw [Option.bind_eq_some_iff] at h
  obtain ⟨r', hr', h⟩ := h
  rw [Option.map_eq_some_iff] at h
  obtain ⟨s', hs', heq⟩ := h
  cases heq
  obtain ⟨hr, hkey⟩ := find?_some_spec hr'
  obtain ⟨hs, hst⟩ := find?_some_spec hs'
  exact ⟨hr, isReservation_iff.mp hkey, hs, hst⟩

theorem candidate_some {db : Db} {q : ReserveQuery} {s : Stock} (h : candidate db q = some s) :
    s ∈ db.inventory.stock ∧ isCandidate db q s = true := by
  have hmem : s ∈ db.inventory.stock.filter (isCandidate db q) := List.argmin_mem h
  exact List.mem_filter.mp hmem

/-! ## Effects -/

/-- `sel` selects the reservation `r` and no other. -/
structure Selects (db : Db) (sel : Reservation → Bool) (r : Reservation) : Prop where
  mem : r ∈ db.inventory.reservations
  selected : sel r = true
  only : ∀ x ∈ db.inventory.reservations, sel x = true → reservationKey x = reservationKey r

/-- The database after the stock of a reservation and the reservation itself
were rewritten. -/
def moved (db : Db) (r : Reservation) (guard : Stock → Bool) (g : Stock → Stock)
    (sel : Reservation → Bool) (f : Reservation → Reservation) : Db :=
  setReservations
    (setStock db (updateWhere (fun s => isStockOf r s && guard s) g db.inventory.stock))
    (updateWhere sel f db.inventory.reservations)

/-- `r'` is `r` with another expiry or another owning generation. -/
structure Renewal (r r' : Reservation) : Prop where
  key : reservationKey r' = reservationKey r
  variantId : r'.variantId = r.variantId
  locationId : r'.locationId = r.locationId
  quantity : r'.quantity = r.quantity
  status : r'.status = r.status
  releasedAt : r'.releasedAt = r.releasedAt
  consumedAt : r'.consumedAt = r.consumedAt

/-- What one statement group of an inventory transaction did. -/
inductive Effect (K : TenantId × ReservationId → Prop) (db : Db) : Db → Prop where
  | refl : Effect K db db
  /-- A new reservation takes a hold on a stock row with enough available. -/
  | insert {q : ReserveQuery} {s : Stock} (hs : s ∈ db.inventory.stock)
      (hcand : isCandidate db q s = true) (hpos : 0 < q.quantity)
      (hfresh : ∀ x ∈ db.inventory.reservations,
        reservationKey x ≠ (q.tenantId, q.reservationId)) :
      Effect K db (setReservations
        (setStock db (updateWhere (fun s' => decide (s'.id = s.id)) (hold q.quantity)
          db.inventory.stock))
        (db.inventory.reservations ++ [newReservation db q s]))
  /-- A held reservation is extended or passes to another generation. -/
  | renew {r : Reservation} {sel : Reservation → Bool} {f : Reservation → Reservation}
      (hsel : Selects db sel r) (hstatus : r.status = .reserved) (hf : ∀ x, Renewal x (f x)) :
      Effect K db (setReservations db (updateWhere sel f db.inventory.reservations))
  /-- A released reservation is held again. -/
  | reacquire {r : Reservation} {sel : Reservation → Bool} {token : Nat}
      (hsel : Selects db sel r) (hstatus : r.status = .released)
      (hstock : ∃ s ∈ db.inventory.stock, isStockOf r s = true ∧
        decide (r.quantity ≤ s.availableQuantity) = true) :
      Effect K db (moved db r (fun s => decide (r.quantity ≤ s.availableQuantity))
        (hold r.quantity) sel (reacquired db.now token))
  /-- A held reservation is given back. -/
  | release {r : Reservation} {sel : Reservation → Bool} (hsel : Selects db sel r)
      (hstatus : r.status = .reserved) :
      Effect K db (moved db r (fun s => decide (r.quantity ≤ s.reservedQuantity))
        (unhold r.quantity) sel (released db.now))
  /-- A held reservation leaves the stock. -/
  | consume {r : Reservation} {sel : Reservation → Bool} (hsel : Selects db sel r)
      (hstatus : r.status = .reserved) (hkey : K (reservationKey r)) :
      Effect K db (moved db r (fun s => decide (r.quantity ≤ s.onHandQuantity) &&
        decide (r.quantity ≤ s.reservedQuantity)) (deduct r.quantity) sel (consumed db.now))

variable {K : TenantId × ReservationId → Prop}

/-- Sequences of effects. -/
inductive Effects (K : TenantId × ReservationId → Prop) (db : Db) : Db → Prop where
  | refl : Effects K db db
  | tail {db₁ db₂ : Db} : Effects K db db₁ → Effect K db₁ db₂ → Effects K db db₂

theorem Effect.toEffects {db db' : Db} (h : Effect K db db') : Effects K db db' := .tail .refl h

theorem Effects.trans {a b c : Db} (h₁ : Effects K a b) (h₂ : Effects K b c) :
    Effects K a c := by
  induction h₂ with
  | refl => exact h₁
  | tail _ he ih => exact .tail ih he

/-- What every effect preserves, every sequence of effects preserves. -/
theorem Effects.invariant {I : Db → Prop} {db db' : Db} (h : Effects K db db') (h0 : I db)
    (hstep : ∀ a b, I a → Effect K a b → I b) : I db' := by
  induction h with
  | refl => exact h0
  | tail _ he ih => exact hstep _ _ ih he

/-- An effect touches the inventory tables and nothing else. -/
theorem Effect.frame {db db' : Db} (h : Effect K db db') :
    db'.checkout = db.checkout ∧ db'.payment = db.payment ∧ db'.now = db.now ∧
      db'.nextUuid = db.nextUuid := by
  cases h <;> exact ⟨rfl, rfl, rfl, rfl⟩

theorem Effects.frame {db db' : Db} (h : Effects K db db') :
    db'.checkout = db.checkout ∧ db'.payment = db.payment ∧ db'.now = db.now ∧
      db'.nextUuid = db.nextUuid := by
  refine h.invariant (I := fun x => x.checkout = db.checkout ∧ x.payment = db.payment ∧
    x.now = db.now ∧ x.nextUuid = db.nextUuid) ⟨rfl, rfl, rfl, rfl⟩ ?_
  rintro a b ⟨h1, h2, h3, h4⟩ he
  obtain ⟨e1, e2, e3, e4⟩ := he.frame
  exact ⟨e1.trans h1, e2.trans h2, e3.trans h3, e4.trans h4⟩

theorem Effect.keyUnique {db db' : Db} (h : Effect K db db')
    (hu : KeyUnique reservationKey db.inventory.reservations) :
    KeyUnique reservationKey db'.inventory.reservations := by
  cases h with
  | refl => exact hu
  | insert _ _ _ hfresh => exact hu.append_singleton hfresh
  | renew hsel hstatus hf => exact hu.updateWhere fun x _ _ => (hf x).key
  | reacquire => exact hu.updateWhere fun _ _ _ => rfl
  | release => exact hu.updateWhere fun _ _ _ => rfl
  | consume => exact hu.updateWhere fun _ _ _ => rfl

/-! ## The operations are sequences of effects -/

theorem ownedIn_iff {t : TenantId} {id : ReservationId} {st : ReservationStatus}
    {rid : RequestId} {r : Reservation} : ownedIn t id st rid r = true ↔
      reservationKey r = (t, id) ∧ r.status = st ∧ r.ownerRequestId = some rid := by
  rw [ownedIn, Bool.and_eq_true, isReservation_iff, decide_eq_true_iff]

/-- The UPDATE of a locked reservation selects that reservation. -/
theorem selects_owned {db : Db} {t : TenantId} {id : ReservationId} {rid : RequestId}
    {st : ReservationStatus} {r : Reservation} (hr : r ∈ db.inventory.reservations)
    (hkey : reservationKey r = (t, id)) (hstatus : r.status = st)
    (howner : r.ownerRequestId = some rid) : Selects db (ownedIn t id st rid) r :=
  ⟨hr, ownedIn_iff.mpr ⟨hkey, hstatus, howner⟩,
    fun _ _ hx => (ownedIn_iff.mp hx).1.trans hkey.symm⟩

theorem renewal_renewed (now token : Nat) (r : Reservation) : Renewal r (renewed now token r) :=
  ⟨rfl, rfl, rfl, rfl, rfl, rfl, rfl⟩

theorem renewal_rebound (token : Nat) (r : Reservation) : Renewal r (rebound token r) :=
  ⟨rfl, rfl, rfl, rfl, rfl, rfl, rfl⟩

theorem reserveAgain_effect {q : ReserveQuery} {rid : RequestId} {token : Nat}
    {r : Reservation} {s : Stock} {db db' : Db} {out : ReserveOutcome}
    (hr : r ∈ db.inventory.reservations)
    (hkey : reservationKey r = (q.tenantId, q.reservationId))
    (h : reserveAgain q rid token r s db = .ok (out, db')) : Effect K db db' := by
  unfold reserveAgain at h
  split at h
  · cases h
  · split at h
    · cases h
    · rename_i howner
      rw [not_not] at howner
      split at h
      · rename_i hstatus
        obtain ⟨db₁, h₁, h⟩ := bind_ok h
        obtain ⟨db₂, h₂, h⟩ := bind_ok h
        cases h
        obtain ⟨rfl, hstock⟩ := moveStock_ok h₁
        rw [moveReservation_ok h₂]
        exact .reacquire (selects_owned hr hkey hstatus howner) hstatus hstock
      · cases h
        exact .refl
      · rename_i hstatus
        obtain ⟨db₁, h₁, h⟩ := bind_ok h
        cases h
        unfold renewHold at h₁
        split at h₁
        · rw [moveReservation_ok h₁]
          exact .renew (selects_owned hr hkey hstatus howner) hstatus (renewal_renewed _ _)
        · cases h₁
          exact .refl

theorem validateQuantity_ok {n : Nat} {m : String} {u : Unit}
    (h : validateQuantity n m = .ok u) : 0 < n := by
  unfold validateQuantity at h
  split at h
  · cases h
  · omega

theorem reserve_effect {q : ReserveQuery} {db db' : Db} {out : Option ReserveOutcome}
    (h : reserve q db = .ok (out, db')) : Effect K db db' := by
  obtain ⟨⟨rid, token⟩, hv, h⟩ := bind_ok h
  obtain ⟨u, hq, -⟩ := bind_ok hv
  have hpos := validateQuantity_ok hq
  dsimp only at h
  unfold reserveTx at h
  split at h
  · cases h
  · obtain ⟨-, -, h⟩ := bind_ok h
    split at h
    · rename_i r s hlock
      obtain ⟨hr, hkey, -, -⟩ := lockReservation_some hlock
      obtain ⟨⟨out', db₁⟩, h₁, h⟩ := bind_ok h
      cases h
      exact reserveAgain_effect hr hkey h₁
    · split at h
      · cases h
        exact .refl
      · rename_i s hcand
        obtain ⟨hs, hc⟩ := candidate_some hcand
        obtain ⟨db₁, h₁, h⟩ := bind_ok h
        obtain ⟨db₂, h₂, h⟩ := bind_ok h
        cases h
        rw [updateStock_ok h₁] at h₂
        obtain ⟨rfl, hfresh⟩ := insertReservation_ok h₂
        exact .insert hs hc hpos hfresh

/-- Giving a reservation up: rebound to this generation, then released. -/
theorem releaseLocked_effects {q : ReleaseBody} {rid : RequestId} {token : Nat}
    {r : Reservation} {s : Stock} {db db' : Db} {out : ReleaseOutcome}
    (hr : r ∈ db.inventory.reservations)
    (hkey : reservationKey r = (q.tenantId, q.reservationId))
    (h : releaseLocked q rid token r s db = .ok (out, db')) : Effects K db db' := by
  unfold releaseLocked at h
  split at h
  · cases h
  · split at h
    · cases h
    · rename_i howner
      rw [not_not] at howner
      split at h
      · cases h
        exact .refl
      · cases h
      · rename_i hstatus
        obtain ⟨db₁, h₁, h⟩ := bind_ok h
        obtain ⟨db₂, h₂, h⟩ := bind_ok h
        obtain ⟨db₃, h₃, h⟩ := bind_ok h
        cases h
        obtain ⟨rfl, -⟩ := moveStock_ok h₂
        rw [moveReservation_ok h₃]
        have hsel := selects_owned hr hkey hstatus howner
        unfold rebindHold at h₁
        split at h₁
        · have hreb := moveReservation_ok h₁
          subst hreb
          refine .tail (.tail .refl (.renew hsel hstatus (renewal_rebound token))) ?_
          -- the row to release is the rebound one
          exact .release (r := rebound token r)
            (selects_owned (mem_updateWhere_of_pos hr hsel.selected) hkey hstatus howner) hstatus
        · cases h₁
          exact .tail .refl (.release hsel hstatus)

theorem release_effects {q : ReleaseBody} {db db' : Db} {out : Option ReleaseOutcome}
    (h : release q db = .ok (out, db')) : Effects K db db' := by
  obtain ⟨⟨rid, token⟩, -, h⟩ := bind_ok h
  obtain ⟨-, -, h⟩ := bind_ok h
  split at h
  · cases h
    exact .refl
  · rename_i r s hlock
    obtain ⟨hr, hkey, -, -⟩ := lockReservation_some hlock
    obtain ⟨⟨out', db₁⟩, h₁, h⟩ := bind_ok h
    cases h
    exact releaseLocked_effects hr hkey h₁

/-- The recovery arms leave a row held by this request with the same stock and
quantity. -/
theorem holdForConsume_effects {t : TenantId} {id : ReservationId} {rid : RequestId}
    {token : Nat} {r : Reservation} {db db' : Db} (hr : r ∈ db.inventory.reservations)
    (hkey : reservationKey r = (t, id)) (howner : r.ownerRequestId = some rid)
    (hnot : r.status ≠ .consumed)
    (h : holdForConsume t id rid token r db = .ok db') :
    Effects K db db' ∧ ∃ r' ∈ db'.inventory.reservations, reservationKey r' = (t, id) ∧
      r'.status = .reserved ∧ r'.ownerRequestId = some rid ∧ r'.quantity = r.quantity ∧
      isStockOf r' = isStockOf r := by
  unfold holdForConsume at h
  split at h
  · rename_i hstatus
    exact absurd hstatus hnot
  · rename_i hstatus
    obtain ⟨db₁, h₁, h₂⟩ := bind_ok h
    obtain ⟨rfl, hstock⟩ := moveStock_ok h₁
    rw [moveReservation_ok h₂]
    have hsel := selects_owned hr hkey hstatus howner
    exact ⟨.tail .refl (.reacquire hsel hstatus hstock), reacquired db.now token r,
      mem_updateWhere_of_pos hr hsel.selected, hkey, rfl, howner, rfl, rfl⟩
  · rename_i hstatus
    have hsel := selects_owned hr hkey hstatus howner
    split at h
    · rw [moveReservation_ok h]
      exact ⟨.tail .refl (.renew hsel hstatus (renewal_renewed _ token)), renewed db.now token r,
        mem_updateWhere_of_pos hr hsel.selected, hkey, hstatus, howner, rfl, rfl⟩
    · split at h
      · rw [moveReservation_ok h]
        exact ⟨.tail .refl (.renew hsel hstatus (renewal_rebound token)), rebound token r,
          mem_updateWhere_of_pos hr hsel.selected, hkey, hstatus, howner, rfl, rfl⟩
      · cases h
        exact ⟨.refl, r, hr, hkey, hstatus, howner, rfl, rfl⟩

theorem consumeOne_effects {t : TenantId} {rid : RequestId} {token : Nat}
    {c : ConsumeReservation} {db db' : Db} {n : Int} (hK : K (t, c.reservationId))
    (h : consumeOne t rid token c db = .ok (n, db')) : Effects K db db' := by
  unfold consumeOne at h
  split at h
  · cases h
  · rename_i r s hlock
    obtain ⟨hr, hkey, -, -⟩ := lockReservation_some hlock
    split at h
    · cases h
    · split at h
      · cases h
      · rename_i howner
        rw [not_not] at howner
        split at h
        · cases h
          exact .refl
        · rename_i hnot
          obtain ⟨db₁, h₁, h⟩ := bind_ok h
          obtain ⟨db₂, h₂, h⟩ := bind_ok h
          obtain ⟨db₃, h₃, h⟩ := bind_ok h
          cases h
          obtain ⟨heff, r', hr', hkey', hst', how', hq', hstock'⟩ :=
            holdForConsume_effects hr hkey howner hnot h₁
          obtain ⟨rfl, -⟩ := moveStock_ok h₂
          rw [moveReservation_ok h₃]
          rw [show db.now = db₁.now from heff.frame.2.2.1.symm, ← hq', ← hstock']
          exact .tail heff (.consume (selects_owned hr' hkey' hst' how') hst'
            (by rw [hkey']; exact hK))

theorem consumeAll_effects {t : TenantId} {rid : RequestId} {token : Nat} {total n : Int}
    {cs : List ConsumeReservation} {db db' : Db} (hK : ∀ c ∈ cs, K (t, c.reservationId))
    (h : consumeAll t rid token total cs db = .ok (n, db')) : Effects K db db' := by
  induction cs generalizing total db with
  | nil =>
    cases h
    exact .refl
  | cons c cs ih =>
    obtain ⟨⟨m, db₁⟩, h₁, h⟩ := bind_ok h
    dsimp only at h
    split at h
    · cases h
    · exact (consumeOne_effects (hK c (by simp)) h₁).trans
        (ih (fun c' hc' => hK c' (by simp [hc'])) h)

/-- The reservation keys a consume request names. -/
def consumes (q : ConsumeBody) (key : TenantId × ReservationId) : Prop :=
  key.1 = q.tenantId ∧ ∃ c ∈ q.reservations, c.reservationId = key.2

theorem consume_effects {q : ConsumeBody} {db db' : Db} {out : ConsumeOutcome}
    (h : consume q db = .ok (out, db')) : Effects (consumes q) db db' := by
  obtain ⟨⟨rid, token⟩, -, h⟩ := bind_ok h
  obtain ⟨-, -, h⟩ := bind_ok h
  obtain ⟨⟨n, db₁⟩, h₁, h⟩ := bind_ok h
  cases h
  exact consumeAll_effects (fun c hc => ⟨rfl, c, hc, rfl⟩) h₁

theorem reapOne_effect {r : Reservation} {db db' : Db} (hr : r ∈ db.inventory.reservations)
    (hexp : isExpired db.now r = true) (h : reapOne r db = .ok db') : Effect K db db' := by
  obtain ⟨db₁, h₁, h⟩ := bind_ok h
  obtain ⟨rfl, -⟩ := moveStock_ok h₁
  dsimp only at h
  split at h
  · rw [updateReservations_ok h]
    refine .release ⟨hr, ?_, ?_⟩ (of_decide_eq_true hexp).1
    · rw [hexp, isReservation_iff.mpr rfl]
      rfl
    · intro x _ hx
      rw [Bool.and_eq_true] at hx
      exact isReservation_iff.mp hx.1
  · cases h

/-- The other reservations of a batch are still there, and expired, after one
of them was reaped. -/
theorem reapOne_keeps {r : Reservation} {rs : List Reservation} {db db' : Db}
    (hrs : ∀ x ∈ rs, x ∈ db.inventory.reservations ∧ isExpired db.now x = true)
    (hne : reservationKey r ∉ rs.map reservationKey) (h : reapOne r db = .ok db') :
    ∀ x ∈ rs, x ∈ db'.inventory.reservations ∧ isExpired db'.now x = true := by
  intro x hx
  obtain ⟨hmem, hexp⟩ := hrs x hx
  obtain ⟨db₁, h₁, h₂⟩ := bind_ok h
  obtain ⟨rfl, -⟩ := moveStock_ok h₁
  dsimp only at h₂
  split at h₂
  · rw [updateReservations_ok h₂]
    refine ⟨mem_updateWhere_of_not hmem ?_, hexp⟩
    cases hx' : isReservation r.tenantId r.reservationId x with
    | false => rfl
    | true => exact absurd (List.mem_map.mpr ⟨x, hx, isReservation_iff.mp hx'⟩) hne
  · cases h₂

theorem reapAll_effects {rs : List Reservation} {db db' : Db} {n : Nat}
    (hrs : ∀ r ∈ rs, r ∈ db.inventory.reservations ∧ isExpired db.now r = true)
    (hnd : (rs.map reservationKey).Nodup)
    (h : reapAll rs db = .ok (n, db')) : Effects K db db' := by
  induction rs generalizing db n with
  | nil =>
    cases h
    exact .refl
  | cons r rs ih =>
    obtain ⟨db₁, h₁, h⟩ := bind_ok h
    obtain ⟨⟨m, db₂⟩, h₂, h⟩ := bind_ok h
    cases h
    rw [List.map_cons, List.nodup_cons] at hnd
    exact (reapOne_effect (hrs r (by simp)).1 (hrs r (by simp)).2 h₁).toEffects.trans
      (ih (reapOne_keeps (fun x hx => hrs x (by simp [hx])) hnd.1 h₁) hnd.2 h₂)

theorem reap_batch {visible : Reservation → Bool} {db : Db} {r : Reservation} {n : Nat}
    (h : r ∈ (db.inventory.reservations.filter fun r =>
      isExpired db.now r && visible r).take n) :
    r ∈ db.inventory.reservations ∧ isExpired db.now r = true := by
  obtain ⟨hmem, hexp⟩ := List.mem_filter.mp (List.mem_of_mem_take h)
  rw [Bool.and_eq_true] at hexp
  exact ⟨hmem, hexp.1⟩

theorem reap_batch_nodup {sel : Reservation → Bool} {db : Db} {n : Nat}
    (hu : KeyUnique reservationKey db.inventory.reservations) :
    (((db.inventory.reservations.filter sel).take n).map reservationKey).Nodup :=
  List.Nodup.sublist (((List.take_sublist _ _).trans List.filter_sublist).map _) hu

theorem reapExpiredReservations_effects {visible : Reservation → Bool} {db db' : Db} {n : Nat}
    (hu : KeyUnique reservationKey db.inventory.reservations)
    (h : reapExpiredReservations visible db = .ok (n, db')) : Effects K db db' :=
  reapAll_effects (fun _ hr => reap_batch hr) (reap_batch_nodup hu) h

theorem failureOf_eq_some {α : Type} {x : Except InventoryError α} {e : InventoryError}
    (h : failureOf x = some e) : x = .error e := by
  cases x with
  | ok a => cases h
  | error e' =>
    cases h
    rfl

end CommercePlayground.Inventory
