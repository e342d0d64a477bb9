/-
CommercePlayground.Inventory.OutcomeTheorems — what the outcome of an inventory
operation says about the reservations it names.

A reservation has one row, and its status (`HasStatus`) is all a repetition
looks at: a reserve of a held or consumed reservation, a release of a released
one and a consume of consumed ones move no stock. A consume that succeeds
leaves every reservation it names consumed and no other row changed, and its
outcome is the quantity of those that were not consumed before
(`consumeAll_spec`).
-/
import CommercePlayground.Inventory.StoreTheorems

namespace CommercePlayground.Inventory

open Lib

/-! ## The status of a reservation -/

/-- The row of a reservation has a status. -/
def HasStatus (db : Db) (key : TenantId × ReservationId) (st : ReservationStatus) : Prop :=
  ∃ r ∈ db.inventory.reservations, reservationKey r = key ∧ r.status = st

/-- The primary key of the reservations. -/
def UniqueRows (db : Db) : Prop := KeyUnique reservationKey db.inventory.reservations

theorem UniqueRows.lock_status {db : Db} (hu : UniqueRows db) {t : TenantId} {id : ReservationId}
    {st : ReservationStatus} (h : HasStatus db (t, id) st) {r : Reservation} {s : Stock}
    (hlock : lockReservation db t id = some (r, s)) : r.status = st := by
  obtain ⟨x, hx, hkey, hst⟩ := h
  obtain ⟨hr, hkey', -⟩ := lockReservation_some hlock
  rw [hu.eq_of_mem hr hx (hkey'.trans hkey.symm)]
  exact hst

/-- The database a transaction leaves has the stock it found. -/
theorem committed_stock {α : Type} {db : Db} {x : Except InventoryError (α × Db)}
    (h : ∀ a db', x = .ok (a, db') → db'.inventory.stock = db.inventory.stock) :
    (committed db x).inventory.stock = db.inventory.stock := by
  cases hx : x with
  | error e => rfl
  | ok r => exact h r.1 r.2 hx

/-! ## Repeating a reserve -/

theorem moveReservation_stock {db db' : Db} {t : TenantId} {id : ReservationId}
    {st : ReservationStatus} {rid : RequestId} {f : Reservation → Reservation}
    (h : moveReservation db t id st rid f = .ok db') :
    db'.inventory.stock = db.inventory.stock := by
  rw [moveReservation_ok h]
  rfl

/-- A successful reserve leaves its reservation held or consumed. -/
theorem reserve_status {q : ReserveQuery} {db db' : Db} {out : ReserveOutcome}
    (h : reserve q db = .ok (some out, db')) :
    ∃ st, st ≠ .released ∧ HasStatus db' (q.tenantId, q.reservationId) st := by
  obtain ⟨⟨rid, token⟩, -, h⟩ := bind_ok h
  dsimp only at h
  unfold reserveTx at h
  split at h
  · cases h
  · obtain ⟨-, -, h⟩ := bind_ok h
    split at h
    · rename_i r s hlock
      obtain ⟨hr, hkey, -, -⟩ := lockReservation_some hlock
      obtain ⟨⟨out', db₁⟩, h₁, h⟩ := bind_ok h
      cases h
      unfold reserveAgain at h₁
      split at h₁
      · cases h₁
      · split at h₁
        · cases h₁
        · rename_i howner
          rw [not_not] at howner
          split at h₁
          · rename_i hstatus
            obtain ⟨db₂, h₂, h₁⟩ := bind_ok h₁
            obtain ⟨db₃, h₃, h₁⟩ := bind_ok h₁
            cases h₁
            obtain ⟨rfl, -⟩ := moveStock_ok h₂
            rw [moveReservation_ok h₃]
            exact ⟨.reserved, nofun, _,
              mem_updateWhere_of_pos hr (ownedIn_iff.mpr ⟨hkey, hstatus, howner⟩), hkey, rfl⟩
          · rename_i hstatus
            cases h₁
            exact ⟨.consumed, nofun, r, hr, hkey, hstatus⟩
          · rename_i hstatus
            obtain ⟨db₂, h₂, h₁⟩ := bind_ok h₁
            cases h₁
            unfold renewHold at h₂
            split at h₂
            · rw [moveReservation_ok h₂]
              exact ⟨.reserved, nofun, _,
                mem_updateWhere_of_pos hr (ownedIn_iff.mpr ⟨hkey, hstatus, howner⟩), hkey,
                hstatus⟩
            · cases h₂
              exact ⟨.reserved, nofun, r, hr, hkey, hstatus⟩
    · split at h
      · cases h
      · obtain ⟨db₁, h₁, h⟩ := bind_ok h
        obtain ⟨db₂, h₂, h⟩ := bind_ok h
        cases h
        rw [updateStock_ok h₁] at h₂
        obtain ⟨rfl, -⟩ := insertReservation_ok h₂
        exact ⟨.reserved, nofun, _, List.mem_append_right _ (List.mem_singleton_self _), rfl, rfl⟩

/-- A reserve of a held or consumed reservation moves no stock. -/
theorem reserve_again {q : ReserveQuery} {db : Db} {st : ReservationStatus} (hu : UniqueRows db)
    (hst : st ≠ .released) (hs : HasStatus db (q.tenantId, q.reservationId) st) :
    (committed db (reserve q db)).inventory.stock = db.inventory.stock := by
  refine committed_stock fun out db' h => ?_
  obtain ⟨⟨rid, token⟩, -, h⟩ := bind_ok h
  dsimp only at h
  unfold reserveTx at h
  split at h
  · cases h
  · obtain ⟨-, -, h⟩ := bind_ok h
    split at h
    · rename_i r s hlock
      have hstatus := hu.lock_status hs hlock
      obtain ⟨⟨out', db₁⟩, h₁, h⟩ := bind_ok h
      cases h
      unfold reserveAgain at h₁
      split at h₁
      · cases h₁
      · split at h₁
        · cases h₁
        · split at h₁
          · rename_i hreleased
            exact absurd (hstatus.symm.trans hreleased) hst
          · cases h₁
            rfl
          · obtain ⟨db₂, h₂, h₁⟩ := bind_ok h₁
            cases h₁
            unfold renewHold at h₂
            split at h₂
            · exact moveReservation_stock h₂
            · cases h₂
              rfl
    · split at h
      · cases h
        rfl
      · -- a row without its stock row: the insert finds the key taken
        obtain ⟨db₁, h₁, h⟩ := bind_ok h
        obtain ⟨db₂, h₂, h⟩ := bind_ok h
        rw [updateStock_ok h₁] at h₂
        obtain ⟨-, hfresh⟩ := insertReservation_ok h₂
        obtain ⟨r, hr, hkey, -⟩ := hs
        exact absurd hkey (hfresh r hr)

/-! ## Repeating a release -/

/-- A successful release leaves its reservation released. -/
theorem release_status {q : ReleaseBody} {db db' : Db} {out : ReleaseOutcome}
    (h : release q db = .ok (some out, db')) :
    HasStatus db' (q.tenantId, q.reservationId) .released := by
  obtain ⟨⟨rid, token⟩, -, h⟩ := bind_ok h
  obtain ⟨-, -, h⟩ := bind_ok h
  split at h
  · cases h
  · rename_i r s hlock
    obtain ⟨hr, hkey, -, -⟩ := lockReservation_some hlock
    obtain ⟨⟨out', db₁⟩, h₁, h⟩ := bind_ok h
    cases h
    unfold releaseLocked at h₁
    split at h₁
    · cases h₁
    · split at h₁
      · cases h₁
      · rename_i howner
        rw [not_not] at howner
        split at h₁
        · rename_i hstatus
          cases h₁
          exact ⟨r, hr, hkey, hstatus⟩
        · cases h₁
        · rename_i hstatus
          obtain ⟨db₂, h₂, h₁⟩ := bind_ok h₁
          obtain ⟨db₃, h₃, h₁⟩ := bind_ok h₁
          obtain ⟨db₄, h₄, h₁⟩ := bind_ok h₁
          cases h₁
          obtain ⟨rfl, -⟩ := moveStock_ok h₃
          rw [moveReservation_ok h₄]
          have hsel := ownedIn_iff.mpr ⟨hkey, hstatus, howner⟩
          unfold rebindHold at h₂
          split at h₂
          · rw [moveReservation_ok h₂]
            have hsel' : ownedIn q.tenantId q.reservationId .reserved rid (rebound token r) =
                true := ownedIn_iff.mpr ⟨hkey, hstatus, howner⟩
            exact ⟨_, mem_updateWhere_of_pos (mem_updateWhere_of_pos hr hsel) hsel', hkey, rfl⟩
          · cases h₂
            exact ⟨_, mem_updateWhere_of_pos hr hsel, hkey, rfl⟩

/-- A release of a released reservation moves no stock. -/
theorem release_again {q : ReleaseBody} {db : Db} (hu : UniqueRows db)
    (hs : HasStatus db (q.tenantId, q.reservationId) .released) :
    (committed db (release q db)).inventory.stock = db.inventory.stock := by
  refine committed_stock fun out db' h => ?_
  obtain ⟨⟨rid, token⟩, -, h⟩ := bind_ok h
  obtain ⟨-, -, h⟩ := bind_ok h
  split at h
  · cases h
    rfl
  · rename_i r s hlock
    have hstatus := hu.lock_status hs hlock
    obtain ⟨⟨out', db₁⟩, h₁, h⟩ := bind_ok h
    cases h
    unfold releaseLocked at h₁
    split at h₁
    · cases h₁
    · split at h₁
      · cases h₁
      · rw [hstatus] at h₁
        cases h₁
        rfl

/-! ## Consuming -/

/-- The rows of the reservations that are not named stay. -/
def OthersKept (named : TenantId × ReservationId → Prop) (db db' : Db) : Prop :=
  ∀ r, ¬ named (reservationKey r) →
    (r ∈ db.inventory.reservations ↔ r ∈ db'.inventory.reservations)

theorem OthersKept.refl (named : TenantId × ReservationId → Prop) (db : Db) :
    OthersKept named db db := fun _ _ => Iff.rfl

theorem OthersKept.trans {named : TenantId × ReservationId → Prop} {a b c : Db}
    (h₁ : OthersKept named a b) (h₂ : OthersKept named b c) : OthersKept named a c :=
  fun r hr => (h₁ r hr).trans (h₂ r hr)

theorem OthersKept.mono {named named' : TenantId × ReservationId → Prop} {db db' : Db}
    (h : OthersKept named db db') (hn : ∀ key, named key → named' key) :
    OthersKept named' db db' := fun r hr => h r fun hkey => hr (hn _ hkey)

theorem OthersKept.status {named : TenantId × ReservationId → Prop} {db db' : Db}
    (h : OthersKept named db db') {key : TenantId × ReservationId} {st : ReservationStatus}
    (hn : ¬ named key) : HasStatus db key st ↔ HasStatus db' key st := by
  constructor
  · rintro ⟨r, hr, rfl, hst⟩
    exact ⟨r, (h r hn).mp hr, rfl, hst⟩
  · rintro ⟨r, hr, rfl, hst⟩
    exact ⟨r, (h r hn).mpr hr, rfl, hst⟩

theorem moveReservation_kept {db db' : Db} {t : TenantId} {id : ReservationId}
    {st : ReservationStatus} {rid : RequestId} {f : Reservation → Reservation}
    (h : moveReservation db t id st rid f = .ok db')
    (hf : ∀ r, reservationKey (f r) = reservationKey r) :
    OthersKept (· = (t, id)) db db' := by
  rw [moveReservation_ok h]
  intro r hr
  simp only [setReservations_reservations]
  constructor
  · intro hmem
    refine mem_updateWhere_of_not hmem ?_
    cases hs : ownedIn t id st rid r with
    | false => rfl
    | true => exact absurd (ownedIn_iff.mp hs).1 hr
  · intro hmem
    obtain ⟨x, hx, rfl⟩ := mem_updateWhere.mp hmem
    split at hr
    · rename_i hs
      exact absurd ((hf x).trans (ownedIn_iff.mp hs).1) hr
    · rename_i hs
      rw [if_neg hs]
      exact hx

theorem moveStock_kept {db db' : Db} {r : Reservation} {guard : Stock → Bool}
    {f : Stock → Stock} {e : OperationFailure} {named : TenantId × ReservationId → Prop}
    (h : moveStock db r guard f e = .ok db') : OthersKept named db db' := by
  obtain ⟨rfl, -⟩ := moveStock_ok h
  exact .refl named db

theorem holdForConsume_kept {t : TenantId} {id : ReservationId} {rid : RequestId} {token : Nat}
    {r : Reservation} {db db' : Db} (h : holdForConsume t id rid token r db = .ok db') :
    OthersKept (· = (t, id)) db db' := by
  unfold holdForConsume at h
  split at h
  · cases h
    exact .refl _ _
  · obtain ⟨db₁, h₁, h₂⟩ := bind_ok h
    exact (moveStock_kept h₁).trans (moveReservation_kept h₂ fun _ => rfl)
  · split at h
    · exact moveReservation_kept h fun _ => rfl
    · split at h
      · exact moveReservation_kept h fun _ => rfl
      · cases h
        exact .refl _ _

/-- One iteration: a consumed reservation is passed over, any other is
consumed. -/
theorem consumeOne_spec {t : TenantId} {rid : RequestId} {token : Nat} {c : ConsumeReservation}
    {db db' : Db} {n : Int} (hu : UniqueRows db) (h : consumeOne t rid token c db = .ok (n, db')) :
    (HasStatus db (t, c.reservationId) .consumed ∧ n = 0 ∧ db' = db) ∨
    (¬ HasStatus db (t, c.reservationId) .consumed ∧ n = c.quantity ∧
      HasStatus db' (t, c.reservationId) .consumed ∧
      OthersKept (· = (t, c.reservationId)) db db') := by
  unfold consumeOne at h
  split at h
  · cases h
  · rename_i r s hlock
    obtain ⟨hr, hkey, -, -⟩ := lockReservation_some hlock
    split at h
    · cases h
    · rename_i hsame
      split at h
      · cases h
      · rename_i howner
        rw [not_not] at howner
        split at h
        · rename_i hconsumed
          cases h
          exact .inl ⟨⟨r, hr, hkey, hconsumed⟩, rfl, rfl⟩
        · rename_i hnot
          right
          obtain ⟨db₁, h₁, h⟩ := bind_ok h
          obtain ⟨db₂, h₂, h⟩ := bind_ok h
          obtain ⟨db₃, h₃, h⟩ := bind_ok h
          cases h
          have hkept := (holdForConsume_kept h₁).trans ((moveStock_kept h₂).trans
            (moveReservation_kept h₃ fun _ => rfl))
          refine ⟨fun hs => hnot (hu.lock_status hs hlock), ?_, ?_, hkept⟩
          · simp only [sameIdentity, Bool.and_eq_false_iff, not_or, Bool.not_eq_false,
              decide_eq_true_eq] at hsame
            exact hsame.1.2
          · obtain ⟨-, r', hr', hkey', hst', how', -, -⟩ :=
              holdForConsume_effects (K := fun _ => True) hr hkey howner hnot h₁
            obtain ⟨rfl, -⟩ := moveStock_ok h₂
            rw [moveReservation_ok h₃]
            exact ⟨_, mem_updateWhere_of_pos hr' (ownedIn_iff.mpr ⟨hkey', hst', how'⟩), hkey',
              rfl⟩

theorem Effects.unique {K : TenantId × ReservationId → Prop} {db db' : Db}
    (h : Effects K db db') (hu : UniqueRows db) : UniqueRows db' :=
  h.invariant (I := UniqueRows) hu fun _ _ ha he => he.keyUnique ha

/-- The reservations a list names. -/
def named (t : TenantId) (cs : List ConsumeReservation) (key : TenantId × ReservationId) : Prop :=
  ∃ c ∈ cs, key = (t, c.reservationId)

/-- **The loop of `consume`.** -/
theorem consumeAll_spec {t : TenantId} {rid : RequestId} {token : Nat} {total n : Int}
    {cs : List ConsumeReservation} {db db' : Db} (hu : UniqueRows db)
    (hnd : (cs.map (·.reservationId)).Nodup)
    (h : consumeAll t rid token total cs db = .ok (n, db')) :
    (∀ c ∈ cs, HasStatus db' (t, c.reservationId) .consumed) ∧
    OthersKept (named t cs) db db' ∧
    ((∀ c ∈ cs, HasStatus db (t, c.reservationId) .consumed) → n = total ∧ db' = db) ∧
    ((∀ c ∈ cs, ¬ HasStatus db (t, c.reservationId) .consumed) →
      n = total + ((cs.map (·.quantity)).sum : Nat)) := by
  induction cs generalizing total db with
  | nil =>
    cases h
    exact ⟨nofun, .refl _ _, fun _ => ⟨rfl, rfl⟩, fun _ => by simp⟩
  | cons c cs ih =>
    obtain ⟨⟨m, db₁⟩, h₁, h⟩ := bind_ok h
    dsimp only at h
    split at h
    · cases h
    · rw [List.map_cons, List.nodup_cons] at hnd
      have hu₁ : UniqueRows db₁ := (consumeOne_effects (K := fun _ => True) trivial h₁).unique hu
      obtain ⟨hall, hkept, hagain, hfresh⟩ := ih hu₁ hnd.2 h
      have hhead : ¬ named t cs (t, c.reservationId) := by
        rintro ⟨c', hc', heq⟩
        exact hnd.1 (List.mem_map.mpr ⟨c', hc', (Prod.mk.inj heq).2.symm⟩)
      have htail : ∀ c' ∈ cs, (t, c'.reservationId) ≠ (t, c.reservationId) := by
        intro c' hc' heq
        exact hnd.1 (List.mem_map.mpr ⟨c', hc', (Prod.mk.inj heq).2⟩)
      have hsub : ∀ key, named t cs key → named t (c :: cs) key := by
        rintro key ⟨c', hc', rfl⟩
        exact ⟨c', List.mem_cons_of_mem _ hc', rfl⟩
      rcases consumeOne_spec hu h₁ with ⟨hs, rfl, rfl⟩ | ⟨hs, rfl, hs₁, hkept₁⟩
      · refine ⟨?_, hkept.mono hsub, fun hold => ?_, fun hold => ?_⟩
        · intro c' hc'
          rcases List.mem_cons.mp hc' with rfl | hc'
          · exact (hkept.status hhead).mp hs
          · exact hall c' hc'
        · simpa using hagain fun c' hc' => hold c' (List.mem_cons_of_mem _ hc')
        · exact absurd hs (hold c List.mem_cons_self)
      · refine ⟨?_, ?_, fun hold => ?_, fun hold => ?_⟩
        · intro c' hc'
          rcases List.mem_cons.mp hc' with rfl | hc'
          · exact (hkept.status hhead).mp hs₁
          · exact hall c' hc'
        · refine OthersKept.trans (hkept₁.mono ?_) (hkept.mono hsub)
          rintro key rfl
          exact ⟨c, List.mem_cons_self, rfl⟩
        · exact absurd (hold c List.mem_cons_self) hs
        · have hrest := hfresh fun c' hc' hs' =>
            hold c' (List.mem_cons_of_mem _ hc') ((hkept₁.status (htail c' hc')).mpr hs')
          rw [hrest, List.map_cons, List.sum_cons, Nat.cast_add]
          omega

theorem validateReservations_ok {seen : List ReservationId} {cs : List ConsumeReservation}
    {u : Unit} (h : validateReservations seen cs = .ok u) :
    (cs.map (·.reservationId)).Nodup ∧ (∀ c ∈ cs, c.reservationId ∉ seen) ∧
      ∀ c ∈ cs, 0 < c.quantity ∧ c.quantity ≤ maxQuantity := by
  induction cs generalizing seen with
  | nil => exact ⟨List.nodup_nil, nofun, nofun⟩
  | cons c cs ih =>
    unfold validateReservations at h
    split at h
    · cases h
    · rename_i hq
      split at h
      · cases h
      · rename_i hseen
        obtain ⟨hnd, hnot, hqs⟩ := ih h
        refine ⟨?_, ?_, ?_⟩
        · rw [List.map_cons, List.nodup_cons]
          refine ⟨fun hmem => ?_, hnd⟩
          obtain ⟨c', hc', heq⟩ := List.mem_map.mp hmem
          exact hnot c' hc' (heq ▸ List.mem_cons_self)
        · intro c' hc'
          rcases List.mem_cons.mp hc' with rfl | hc'
          · exact hseen
          · exact fun hmem => hnot c' hc' (List.mem_cons_of_mem _ hmem)
        · intro c' hc'
          rcases List.mem_cons.mp hc' with rfl | hc'
          · omega
          · exact hqs c' hc'

/-- A request that passes `validate_consume`. -/
structure ValidConsume (q : ConsumeBody) : Prop where
  some : q.reservations ≠ []
  few : q.reservations.length ≤ maxConsumeReservations
  distinct : (q.reservations.map (·.reservationId)).Nodup
  quantities : ∀ c ∈ q.reservations, 0 < c.quantity ∧ c.quantity ≤ maxQuantity

theorem validateConsume_ok {q : ConsumeBody} {fence : RequestId × Nat}
    (h : validateConsume q = .ok fence) : ValidConsume q := by
  unfold validateConsume at h
  split at h
  · cases h
  · rename_i hsize
    obtain ⟨_, -, h⟩ := bind_ok h
    obtain ⟨_, hv, -⟩ := bind_ok h
    obtain ⟨hnd, -, hqs⟩ := validateReservations_ok hv
    exact ⟨fun hnil => hsize (.inl hnil), by omega, hnd, hqs⟩

/-- What a request asks for in all. -/
def requested (q : ConsumeBody) : Nat := (q.reservations.map (·.quantity)).sum

theorem sum_quantities_le {cs : List ConsumeReservation} {m : Nat}
    (h : ∀ c ∈ cs, c.quantity ≤ m) : (cs.map (·.quantity)).sum ≤ cs.length * m := by
  induction cs with
  | nil => simp
  | cons c cs ih =>
    have hc := h c List.mem_cons_self
    have hcs := ih fun c' hc' => h c' (List.mem_cons_of_mem _ hc')
    simp only [List.map_cons, List.sum_cons, List.length_cons, Nat.succ_mul]
    omega

/-- Fifty times a million fits in `u32`. -/
theorem requested_le {q : ConsumeBody} (h : ValidConsume q) : requested q ≤ 4294967295 := by
  have hsum := sum_quantities_le fun c hc => (h.quantities c hc).2
  have hfew := h.few
  simp only [maxQuantity, maxConsumeReservations] at hsum hfew
  unfold requested
  omega

theorem requested_pos {q : ConsumeBody} (h : ValidConsume q) : 0 < requested q := by
  obtain ⟨c, cs, heq⟩ := List.exists_cons_of_ne_nil h.some
  have hpos := (h.quantities c (by rw [heq]; exact List.mem_cons_self)).1
  simp only [requested, heq, List.map_cons, List.sum_cons]
  omega

/-- A successful consume. -/
structure Consumes (q : ConsumeBody) (db : Db) (o : ConsumeOutcome) (db' : Db) : Prop where
  valid : ValidConsume q
  all : ∀ c ∈ q.reservations, HasStatus db' (q.tenantId, c.reservationId) .consumed
  others : OthersKept (named q.tenantId q.reservations) db db'
  status : o.status = if o.consumed = 0 then .alreadyConsumed else .consumed
  again : (∀ c ∈ q.reservations, HasStatus db (q.tenantId, c.reservationId) .consumed) →
    o.consumed = 0 ∧ db' = db
  first : (∀ c ∈ q.reservations, ¬ HasStatus db (q.tenantId, c.reservationId) .consumed) →
    o.consumed = requested q

theorem consume_spec {q : ConsumeBody} {db db' : Db} {o : ConsumeOutcome} (hu : UniqueRows db)
    (h : consume q db = .ok (o, db')) : Consumes q db o db' := by
  obtain ⟨⟨rid, token⟩, hv, h⟩ := bind_ok h
  have hvalid := validateConsume_ok hv
  obtain ⟨-, -, h⟩ := bind_ok h
  obtain ⟨⟨n, db₁⟩, h₁, h⟩ := bind_ok h
  cases h
  obtain ⟨hall, hkept, hagain, hfirst⟩ := consumeAll_spec hu hvalid.distinct h₁
  exact ⟨hvalid, hall, hkept, rfl, hagain, fun hnone => by simpa [requested] using hfirst hnone⟩

/-- A consume of consumed reservations moves no stock. -/
theorem consume_again {q : ConsumeBody} {db : Db} (hu : UniqueRows db)
    (hs : ∀ c ∈ q.reservations, HasStatus db (q.tenantId, c.reservationId) .consumed) :
    (committed db (consume q db)).inventory.stock = db.inventory.stock := by
  refine committed_stock fun o db' h => ?_
  rw [((consume_spec hu h).again hs).2]

/-! ## Histories -/

/-- A consumed reservation stays consumed, and only the reservations in `K`
become consumed. -/
theorem Effect.consumed_iff {K : TenantId × ReservationId → Prop} {db db' : Db}
    (h : Effect K db db') (hu : UniqueRows db) {key : TenantId × ReservationId} (hK : ¬ K key) :
    HasStatus db' key .consumed ↔ HasStatus db key .consumed := by
  have hupdate : ∀ {sel : Reservation → Bool} {f : Reservation → Reservation} {r : Reservation},
      Selects db sel r → r.status ≠ .consumed →
      (∀ x, reservationKey (f x) = reservationKey x) →
      (reservationKey r = key → (f r).status ≠ .consumed) →
      ((∃ x ∈ updateWhere sel f db.inventory.reservations,
        reservationKey x = key ∧ x.status = .consumed) ↔ HasStatus db key .consumed) := by
    intro sel f r hsel hr hf hnew
    constructor
    · rintro ⟨x, hx, hkey, hst⟩
      obtain ⟨y, hy, rfl⟩ := mem_updateWhere.mp hx
      by_cases hs : sel y = true
      · rw [if_pos hs] at hkey hst
        obtain rfl : y = r := hu.eq_of_mem hy hsel.mem (hsel.only y hy hs)
        exact absurd hst (hnew ((hf y).symm.trans hkey))
      · rw [if_neg hs] at hkey hst
        exact ⟨y, hy, hkey, hst⟩
    · rintro ⟨x, hx, hkey, hst⟩
      refine ⟨x, mem_updateWhere_of_not hx ?_, hkey, hst⟩
      by_contra hs
      rw [Bool.not_eq_false] at hs
      rw [hu.eq_of_mem hx hsel.mem (hsel.only x hx hs)] at hst
      exact hr hst
  cases h with
  | refl => exact Iff.rfl
  | insert =>
    constructor
    · rintro ⟨x, hx, hkey, hst⟩
      rcases List.mem_append.mp hx with hx | hx
      · exact ⟨x, hx, hkey, hst⟩
      · rw [List.mem_singleton.mp hx] at hst
        cases hst
    · rintro ⟨x, hx, hkey, hst⟩
      exact ⟨x, List.mem_append_left _ hx, hkey, hst⟩
  | renew hsel hstatus hf =>
    refine hupdate hsel (by rw [hstatus]; decide) (fun x => (hf x).key) fun _ => ?_
    rw [(hf _).status, hstatus]
    decide
  | reacquire hsel hstatus =>
    exact hupdate hsel (by rw [hstatus]; decide) (fun _ => rfl) fun _ => nofun
  | release hsel hstatus =>
    exact hupdate hsel (by rw [hstatus]; decide) (fun _ => rfl) fun _ => nofun
  | consume hsel hstatus hkey =>
    refine hupdate hsel (by rw [hstatus]; decide) (fun _ => rfl) fun heq => ?_
    exact absurd (heq ▸ hkey) hK

theorem Effects.consumed_iff {K : TenantId × ReservationId → Prop} {db db' : Db}
    (h : Effects K db db') (hu : UniqueRows db) {key : TenantId × ReservationId} (hK : ¬ K key) :
    HasStatus db' key .consumed ↔ HasStatus db key .consumed := by
  have hboth := h.invariant (I := fun x => UniqueRows x ∧
    (HasStatus x key .consumed ↔ HasStatus db key .consumed)) ⟨hu, Iff.rfl⟩ ?_
  · exact hboth.2
  · rintro a b ⟨ha, hiff⟩ he
    exact ⟨he.keyUnique ha, (he.consumed_iff ha hK).trans hiff⟩

/-- Every consume request that names a reservation of the set `R` names the
whole set and nothing else. -/
def NamesWhole (t : TenantId) (R : ReservationId → Prop) (_ : Db) (a : Action) : Prop :=
  ∀ q, a = .consume q → q.tenantId = t → (∃ c ∈ q.reservations, R c.reservationId) →
    ∀ id, R id ↔ ∃ c ∈ q.reservations, c.reservationId = id

/-- The reservations of the set are consumed, or none is. -/
structure Uniform (t : TenantId) (R : ReservationId → Prop) (db : Db) : Prop where
  unique : UniqueRows db
  together : (∀ id, R id → HasStatus db (t, id) .consumed) ∨
    ∀ id, R id → ¬ HasStatus db (t, id) .consumed

theorem Uniform.of_iff {t : TenantId} {R : ReservationId → Prop} {db db' : Db}
    (h : Uniform t R db) (hu : UniqueRows db')
    (hiff : ∀ id, R id → (HasStatus db' (t, id) .consumed ↔ HasStatus db (t, id) .consumed)) :
    Uniform t R db' := by
  refine ⟨hu, ?_⟩
  rcases h.together with hall | hnone
  · exact .inl fun id hid => (hiff id hid).mpr (hall id hid)
  · exact .inr fun id hid hs => hnone id hid ((hiff id hid).mp hs)

theorem Uniform.effects {t : TenantId} {R : ReservationId → Prop} {db db' : Db}
    {K : TenantId × ReservationId → Prop} (h : Uniform t R db) (he : Effects K db db')
    (hK : ∀ id, R id → ¬ K (t, id)) : Uniform t R db' :=
  h.of_iff (he.unique h.unique) fun id hid => he.consumed_iff h.unique (hK id hid)

/-- One step of a history that consumes whole sets. -/
theorem Uniform.step {t : TenantId} {R : ReservationId → Prop} {db db' : Db} {a : Action}
    (h : Uniform t R db) (hok : NamesWhole t R db a) (hs : Inventory.step db a = some db') :
    Uniform t R db' := by
  cases a with
  | reserve q =>
    cases hr : reserve q db with
    | error e =>
      simp only [Inventory.step, hr, committed, Option.some.injEq] at hs
      exact hs ▸ h
    | ok r =>
      simp only [Inventory.step, hr, committed, Option.some.injEq] at hs
      have he : Effect (fun _ => False) db db' := hs ▸ reserve_effect hr
      exact h.effects he.toEffects fun _ _ => id
  | release q =>
    cases hr : release q db with
    | error e =>
      simp only [Inventory.step, hr, committed, Option.some.injEq] at hs
      exact hs ▸ h
    | ok r =>
      simp only [Inventory.step, hr, committed, Option.some.injEq] at hs
      have he : Effects (fun _ => False) db db' := hs ▸ release_effects hr
      exact h.effects he fun _ _ => id
  | consume q =>
    cases hr : consume q db with
    | error e =>
      simp only [Inventory.step, hr, committed, Option.some.injEq] at hs
      exact hs ▸ h
    | ok r =>
      simp only [Inventory.step, hr, committed, Option.some.injEq] at hs
      have hrun : consume q db = .ok (r.1, db') := hs ▸ hr
      by_cases hnames : q.tenantId = t ∧ ∃ c ∈ q.reservations, R c.reservationId
      · -- the request names the whole set, and leaves it consumed
        obtain ⟨rfl, hex⟩ := hnames
        refine ⟨(consume_effects hrun).unique h.unique, .inl fun id hid => ?_⟩
        obtain ⟨c, hc, rfl⟩ := (hok q rfl rfl hex id).mp hid
        exact (consume_spec h.unique hrun).all c hc
      · refine h.effects (consume_effects hrun) fun id hid hk => hnames ?_
        obtain ⟨ht, c, hc, rfl⟩ := hk
        exact ⟨ht.symm, c, hc, hid⟩
  | reap visible =>
    cases hr : reapExpiredReservations visible db with
    | error e =>
      simp only [Inventory.step, hr, committed, Option.some.injEq] at hs
      exact hs ▸ h
    | ok r =>
      simp only [Inventory.step, hr, committed, Option.some.injEq] at hs
      have he : Effects (fun _ => False) db db' :=
        hs ▸ reapExpiredReservations_effects h.unique hr
      exact h.effects he fun _ _ => id
  | environment =>
    cases hs
    exact h.of_iff h.unique fun _ _ => Iff.rfl

end CommercePlayground.Inventory
