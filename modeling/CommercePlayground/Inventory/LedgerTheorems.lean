/-
CommercePlayground.Inventory.LedgerTheorems — conservation of stock.

Every stock row carries two balances over its reservations: what is reserved
is a constant plus the held quantities, and what is on hand plus the consumed
quantities is a constant. `Ledger` states both together with the keys and
CHECKs of the tables. Each effect moves one reservation and its stock row by
the same quantity (`Ledger.transfer`), so the balances survive every run, and
the branches that report an inconsistent ledger are unreachable.
-/
import CommercePlayground.Inventory.StoreTheorems
import CommercePlayground.Lib.Transition

namespace CommercePlayground.Inventory

open Lib

/-! ## The ledger -/

/-- UNIQUE (tenant_id, variant_id, location_id) of `inventory`. -/
def stockKey (s : Stock) : TenantId × VariantId × LocationId :=
  (s.tenantId, s.variantId, s.locationId)

/-- A reservation of this stock row in this status. -/
def inStatus (st : ReservationStatus) (s : Stock) (r : Reservation) : Bool :=
  isStockOf r s && decide (r.status = st)

/-- The quantities of a stock row's reservations in one status. -/
def quantityIn (st : ReservationStatus) (s : Stock) (rs : List Reservation) : Int :=
  sumWhere (inStatus st s) (·.quantity) rs

/-- The inventory ledger, with the constants of each stock row. -/
structure Ledger (base total : Nat → Int) (db : Db) : Prop where
  stockIds : KeyUnique (·.id) db.inventory.stock
  stockKeys : KeyUnique stockKey db.inventory.stock
  reservationKeys : KeyUnique reservationKey db.inventory.reservations
  checked : ∀ r ∈ db.inventory.reservations, reservationChecks r = true
  placed : ∀ r ∈ db.inventory.reservations, r.status = .reserved →
    ∃ s ∈ db.inventory.stock, isStockOf r s = true
  base_nonneg : ∀ s ∈ db.inventory.stock, 0 ≤ base s.id
  reserved : ∀ s ∈ db.inventory.stock,
    s.reservedQuantity = base s.id + quantityIn .reserved s db.inventory.reservations
  onHand : ∀ s ∈ db.inventory.stock,
    s.onHandQuantity + quantityIn .consumed s db.inventory.reservations = total s.id
  bounded : ∀ s ∈ db.inventory.stock,
    0 ≤ s.reservedQuantity ∧ s.reservedQuantity ≤ s.onHandQuantity

variable {base total : Nat → Int} {db db' : Db} {K : TenantId × ReservationId → Prop}

theorem quantity_pos {r : Reservation} (h : reservationChecks r = true) : 0 < r.quantity := by
  unfold reservationChecks at h
  rw [Bool.and_eq_true, decide_eq_true_iff] at h
  exact h.1

theorem isStockOf_iff {r : Reservation} {s : Stock} : isStockOf r s = true ↔
    stockKey s = (r.tenantId, r.variantId, r.locationId) := by
  simp [isStockOf, stockKey]

/-- A reservation has at most one stock row. -/
theorem Ledger.stock_unique (h : Ledger base total db) {r : Reservation} {s s' : Stock}
    (hs : s ∈ db.inventory.stock) (hs' : s' ∈ db.inventory.stock) (hr : isStockOf r s = true)
    (hr' : isStockOf r s' = true) : s = s' :=
  h.stockKeys.eq_of_mem hs hs' ((isStockOf_iff.mp hr).trans (isStockOf_iff.mp hr').symm)

/-- What a stock row holds covers each of its reservations. -/
theorem Ledger.covers (h : Ledger base total db) {r : Reservation} {s : Stock}
    (hr : r ∈ db.inventory.reservations) (hstatus : r.status = .reserved)
    (hs : s ∈ db.inventory.stock) (hstock : isStockOf r s = true) :
    r.quantity ≤ s.reservedQuantity := by
  have hle : r.quantity ≤ quantityIn .reserved s db.inventory.reservations :=
    le_sumWhere_of_mem (fun x hx _ => le_of_lt (quantity_pos (h.checked x hx))) hr
      (by simp [inStatus, hstock, hstatus])
  have hres := h.reserved s hs
  have hbase := h.base_nonneg s hs
  omega

/-! ## Moving one reservation -/

/-- The balance law for one rewritten reservation. -/
theorem quantityIn_update {sel : Reservation → Bool} {f : Reservation → Reservation}
    {r : Reservation} (hu : KeyUnique reservationKey db.inventory.reservations)
    (hsel : Selects db sel r) (st : ReservationStatus) (s : Stock) :
    quantityIn st s (updateWhere sel f db.inventory.reservations) =
      quantityIn st s db.inventory.reservations -
        (if inStatus st s r then r.quantity else 0) +
        (if inStatus st s (f r) then (f r).quantity else 0) :=
  sumWhere_updateWhere hu hsel.mem hsel.selected hsel.only

/-- The share of a reservation in one status. -/
def share (st : ReservationStatus) (r : Reservation) : Int :=
  if r.status = st then r.quantity else 0

/-- `f` keeps what identifies the reservation `r`. -/
structure Keeps (r r' : Reservation) : Prop where
  key : reservationKey r' = reservationKey r
  stock : isStockOf r' = isStockOf r
  quantity : r'.quantity = r.quantity

/-- One reservation and its stock row move by the same quantity, and all
other rows stay. -/
theorem Ledger.transfer (h : Ledger base total db) {r : Reservation}
    {sel : Reservation → Bool} {f : Reservation → Reservation} {m : Stock → Stock}
    (hsel : Selects db sel r) (hf : Keeps r (f r)) (hchecked : reservationChecks (f r) = true)
    (hid : ∀ s, (m s).id = s.id ∧ stockKey (m s) = stockKey s)
    (hother : ∀ s ∈ db.inventory.stock, isStockOf r s = false → m s = s)
    (hown : ∀ s ∈ db.inventory.stock, isStockOf r s = true →
      (m s).reservedQuantity = s.reservedQuantity - share .reserved r + share .reserved (f r) ∧
      (m s).onHandQuantity = s.onHandQuantity + share .consumed r - share .consumed (f r) ∧
      0 ≤ (m s).reservedQuantity ∧ (m s).reservedQuantity ≤ (m s).onHandQuantity)
    (hplaced : ∃ s ∈ db.inventory.stock, isStockOf r s = true) :
    Ledger base total (setReservations (setStock db (db.inventory.stock.map m))
      (updateWhere sel f db.inventory.reservations)) := by
  have hstockOf : ∀ x s, isStockOf x (m s) = isStockOf x s := by
    intro x s
    have := (hid s).2
    simp only [stockKey, Prod.mk.injEq] at this
    simp [isStockOf, this.1, this.2.1, this.2.2]
  -- a row of the new table is the selected one or an old one
  have hrows : ∀ x ∈ updateWhere sel f db.inventory.reservations,
      x = f r ∨ x ∈ db.inventory.reservations := by
    intro x hx
    obtain ⟨x₀, hx₀, rfl⟩ := mem_updateWhere.mp hx
    cases hs : sel x₀ with
    | false => exact .inr (by simpa using hx₀)
    | true =>
      rw [h.reservationKeys.eq_of_mem hx₀ hsel.mem (hsel.only x₀ hx₀ hs)]
      exact .inl (by simp)
  have hsum : ∀ st, ∀ s ∈ db.inventory.stock,
      quantityIn st (m s) (updateWhere sel f db.inventory.reservations) =
        quantityIn st s db.inventory.reservations +
          if isStockOf r s then share st (f r) - share st r else 0 := by
    intro st s _
    have hcongr : inStatus st (m s) = inStatus st s := by
      funext x
      simp [inStatus, hstockOf]
    rw [quantityIn_update h.reservationKeys hsel]
    unfold quantityIn
    rw [hcongr]
    simp only [inStatus, share, hf.stock, hf.quantity]
    by_cases hrs : isStockOf r s = true
    · simp only [hrs, Bool.true_and, decide_eq_true_eq, if_true]
      omega
    · simp [hrs]
  have hmem : ∀ s' ∈ db.inventory.stock.map m, ∃ s ∈ db.inventory.stock, m s = s' :=
    fun s' hs' => List.mem_map.mp hs'
  refine ⟨?_, ?_, ?_, ?_, ?_, ?_, ?_, ?_, ?_⟩
  · have : (db.inventory.stock.map m).map (·.id) = db.inventory.stock.map (·.id) := by
      rw [List.map_map]
      exact List.map_congr_left fun s _ => (hid s).1
    simpa [KeyUnique, this] using h.stockIds
  · have : (db.inventory.stock.map m).map stockKey = db.inventory.stock.map stockKey := by
      rw [List.map_map]
      exact List.map_congr_left fun s _ => (hid s).2
    simpa [KeyUnique, this] using h.stockKeys
  · refine h.reservationKeys.updateWhere fun x hx hs => ?_
    rw [h.reservationKeys.eq_of_mem hx hsel.mem (hsel.only x hx hs)]
    exact hf.key
  · intro x hx
    rcases hrows x hx with rfl | hx
    · exact hchecked
    · exact h.checked x hx
  · intro x hx hst
    have hex : ∃ s ∈ db.inventory.stock, isStockOf x s = true := by
      rcases hrows x hx with rfl | hx
      · rw [hf.stock]
        exact hplaced
      · exact h.placed x hx hst
    obtain ⟨s, hs, hxs⟩ := hex
    exact ⟨m s, List.mem_map.mpr ⟨s, hs, rfl⟩, by rw [hstockOf]; exact hxs⟩
  · intro s' hs'
    obtain ⟨s, hs, rfl⟩ := hmem s' hs'
    rw [(hid s).1]
    exact h.base_nonneg s hs
  · intro s' hs'
    obtain ⟨s, hs, rfl⟩ := hmem s' hs'
    have hold := h.reserved s hs
    rw [setReservations_reservations, hsum .reserved s hs, (hid s).1]
    cases hrs : isStockOf r s with
    | false => simpa [hother s hs hrs] using hold
    | true =>
      rw [(hown s hs hrs).1]
      simp only [if_true]
      omega
  · intro s' hs'
    obtain ⟨s, hs, rfl⟩ := hmem s' hs'
    have hold := h.onHand s hs
    rw [setReservations_reservations, hsum .consumed s hs, (hid s).1]
    cases hrs : isStockOf r s with
    | false => simpa [hother s hs hrs] using hold
    | true =>
      rw [(hown s hs hrs).2.1]
      simp only [if_true]
      omega
  · intro s' hs'
    obtain ⟨s, hs, rfl⟩ := hmem s' hs'
    cases hrs : isStockOf r s with
    | false =>
      rw [hother s hs hrs]
      exact h.bounded s hs
    | true => exact (hown s hs hrs).2.2

/-- `transfer` for the two UPDATEs of `moved`. -/
theorem Ledger.moved (h : Ledger base total db) {r : Reservation} {s₀ : Stock}
    {guard : Stock → Bool} {g : Stock → Stock} {sel : Reservation → Bool}
    {f : Reservation → Reservation} (hsel : Selects db sel r) (hf : Keeps r (f r))
    (hchecked : reservationChecks (f r) = true)
    (hid : ∀ s, (g s).id = s.id ∧ stockKey (g s) = stockKey s)
    (hs₀ : s₀ ∈ db.inventory.stock) (hstock : isStockOf r s₀ = true) (hguard : guard s₀ = true)
    (hreserved : (g s₀).reservedQuantity =
      s₀.reservedQuantity - share .reserved r + share .reserved (f r))
    (honHand : (g s₀).onHandQuantity =
      s₀.onHandQuantity + share .consumed r - share .consumed (f r))
    (hbounded : 0 ≤ (g s₀).reservedQuantity ∧ (g s₀).reservedQuantity ≤ (g s₀).onHandQuantity) :
    Ledger base total (Inventory.moved db r guard g sel f) := by
  refine h.transfer hsel hf hchecked (fun s => ?_) (fun s _ hs => by simp [hs])
    (fun s hs hrs => ?_) ⟨s₀, hs₀, hstock⟩
  · split
    · exact hid s
    · exact ⟨rfl, rfl⟩
  · rw [h.stock_unique hs hs₀ hrs hstock]
    simp only [hstock, hguard, Bool.and_self, if_true]
    exact ⟨hreserved, honHand, hbounded⟩

/-- A new reservation and the hold it takes. -/
theorem Ledger.insert (h : Ledger base total db) {q : ReserveQuery} {s₀ : Stock}
    (hs₀ : s₀ ∈ db.inventory.stock) (hcand : isCandidate db q s₀ = true) (hpos : 0 < q.quantity)
    (hfresh : ∀ x ∈ db.inventory.reservations,
      reservationKey x ≠ (q.tenantId, q.reservationId)) :
    Ledger base total (setReservations
      (setStock db (updateWhere (fun s' => decide (s'.id = s₀.id)) (hold q.quantity)
        db.inventory.stock))
      (db.inventory.reservations ++ [newReservation db q s₀])) := by
  have hcand' : s₀.tenantId = q.tenantId ∧ (q.quantity : Int) ≤ s₀.availableQuantity := by
    simp only [isCandidate, Bool.and_eq_true, decide_eq_true_eq] at hcand
    exact ⟨hcand.1.1.1, hcand.2⟩
  have hkey : ∀ s, isStockOf (newReservation db q s₀) s = true ↔ stockKey s = stockKey s₀ := by
    intro s
    rw [isStockOf_iff]
    simp [newReservation, stockKey, hcand'.1]
  -- the stock row the id selects is the one the reservation joins
  have hsame : ∀ s ∈ db.inventory.stock, s.id = s₀.id ↔ stockKey s = stockKey s₀ := by
    intro s hs
    constructor
    · intro heq
      rw [h.stockIds.eq_of_mem hs hs₀ heq]
    · intro heq
      rw [h.stockKeys.eq_of_mem hs hs₀ heq]
  have hsum : ∀ st (s : Stock),
      quantityIn st s (db.inventory.reservations ++ [newReservation db q s₀]) =
        quantityIn st s db.inventory.reservations +
          if stockKey s = stockKey s₀ ∧ st = .reserved then (q.quantity : Int) else 0 := by
    intro st s
    unfold quantityIn
    rw [sumWhere_append, sumWhere_singleton]
    congr 1
    have hst : (newReservation db q s₀).status = .reserved := rfl
    have hqty : (newReservation db q s₀).quantity = q.quantity := rfl
    by_cases hk : stockKey s = stockKey s₀
    · simp [inStatus, (hkey s).mpr hk, hk, hst, hqty, eq_comm]
    · have : isStockOf (newReservation db q s₀) s = false := by
        simpa [hk] using (hkey s)
      simp [inStatus, this, hk]
  have hmem : ∀ s' ∈ updateWhere (fun s' => decide (s'.id = s₀.id)) (hold q.quantity)
      db.inventory.stock, ∃ s ∈ db.inventory.stock,
        s' = if decide (s.id = s₀.id) then hold q.quantity s else s := by
    intro s' hs'
    obtain ⟨s, hs, heq⟩ := mem_updateWhere.mp hs'
    exact ⟨s, hs, heq⟩
  have hcongr : ∀ st (s : Stock) rs, quantityIn st (hold q.quantity s) rs = quantityIn st s rs :=
    fun _ _ _ => rfl
  have hq : (0 : Int) < q.quantity := by omega
  refine ⟨h.stockIds.updateWhere fun _ _ _ => rfl, h.stockKeys.updateWhere fun _ _ _ => rfl,
    h.reservationKeys.append_singleton hfresh, ?_, ?_, ?_, ?_, ?_, ?_⟩
  · intro r hr
    rcases List.mem_append.mp hr with hr | hr
    · exact h.checked r hr
    · rw [List.mem_singleton.mp hr]
      simp [reservationChecks, newReservation, hpos]
  · intro r hr hst
    have hex : ∃ s ∈ db.inventory.stock, isStockOf r s = true := by
      rcases List.mem_append.mp hr with hr | hr
      · exact h.placed r hr hst
      · rw [List.mem_singleton.mp hr]
        exact ⟨s₀, hs₀, (hkey s₀).mpr rfl⟩
    obtain ⟨s, hs, hrs⟩ := hex
    cases hsel : decide (s.id = s₀.id) with
    | false => exact ⟨s, mem_updateWhere_of_not hs hsel, hrs⟩
    | true => exact ⟨hold q.quantity s, mem_updateWhere_of_pos hs hsel, hrs⟩
  · intro s' hs'
    obtain ⟨s, hs, rfl⟩ := hmem s' hs'
    have := h.base_nonneg s hs
    split <;> exact this
  · intro s' hs'
    obtain ⟨s, hs, rfl⟩ := hmem s' hs'
    have hold' := h.reserved s hs
    rw [setReservations_reservations, hsum]
    by_cases hid : s.id = s₀.id
    · have hk : stockKey (hold q.quantity s) = stockKey s₀ := (hsame s hs).mp hid
      rw [if_pos (by simp [hid]), if_pos ⟨hk, rfl⟩, hcongr]
      simp only [hold]
      omega
    · have hk := mt (hsame s hs).mpr hid
      simp [hid, hk, hold']
  · intro s' hs'
    obtain ⟨s, hs, rfl⟩ := hmem s' hs'
    have hold' := h.onHand s hs
    rw [setReservations_reservations, hsum]
    simp only [reduceCtorEq, and_false, if_false, add_zero]
    split
    · rw [hcongr]
      exact hold'
    · exact hold'
  · intro s' hs'
    obtain ⟨s, hs, rfl⟩ := hmem s' hs'
    have hb := h.bounded s hs
    by_cases hid : s.id = s₀.id
    · have havail := hcand'.2
      rw [h.stockIds.eq_of_mem hs hs₀ hid] at hb ⊢
      simp only [Stock.availableQuantity] at havail
      simp only [decide_true, if_true, hold]
      omega
    · simpa [hid] using hb

/-- Every effect keeps the ledger. -/
theorem Ledger.effect (h : Ledger base total db) (he : Effect K db db') :
    Ledger base total db' := by
  cases he with
  | refl => exact h
  | insert hs hcand hpos hfresh => exact h.insert hs hcand hpos hfresh
  | @renew r sel f hsel hstatus hf =>
    have hr := hf r
    have hstock : isStockOf (f r) = isStockOf r := by
      have hk := hr.key
      simp only [reservationKey, Prod.mk.injEq] at hk
      funext s
      simp [isStockOf, hk.1, hr.variantId, hr.locationId]
    have hshare : ∀ st, share st (f r) = share st r := by
      intro st
      simp [share, hr.status, hr.quantity]
    have := h.transfer (m := id) hsel ⟨hr.key, hstock, hr.quantity⟩
      (by
        have hc := h.checked r hsel.mem
        unfold reservationChecks at hc ⊢
        rw [hr.quantity, hr.status, hr.releasedAt, hr.consumedAt]
        exact hc)
      (fun _ => ⟨rfl, rfl⟩) (fun _ _ _ => rfl)
      (fun s hs _ => by
        have hb := h.bounded s hs
        rw [hshare, hshare]
        simp only [id]
        omega)
      (h.placed r hsel.mem hstatus)
    rw [List.map_id] at this
    exact this
  | @reacquire r sel token hsel hstatus hstock =>
    obtain ⟨s, hs, hrs, havail⟩ := hstock
    have hb := h.bounded s hs
    have hq := quantity_pos (h.checked r hsel.mem)
    have hle : r.quantity ≤ s.onHandQuantity - s.reservedQuantity := of_decide_eq_true havail
    refine h.moved hsel ⟨rfl, rfl, rfl⟩ (by simp [reservationChecks, reacquired, hq])
      (fun _ => ⟨rfl, rfl⟩) hs hrs havail ?_ ?_ ?_
    · simp [share, hstatus, hold, reacquired]
    · simp [share, hstatus, hold, reacquired]
    · simp only [hold]
      omega
  | @release r sel hsel hstatus =>
    obtain ⟨s, hs, hrs⟩ := h.placed r hsel.mem hstatus
    have hb := h.bounded s hs
    have hq := quantity_pos (h.checked r hsel.mem)
    have hcov := h.covers hsel.mem hstatus hs hrs
    refine h.moved hsel ⟨rfl, rfl, rfl⟩ (by simp [reservationChecks, released, hq])
      (fun _ => ⟨rfl, rfl⟩) hs hrs (by simpa using hcov) ?_ ?_ ?_
    · simp [share, hstatus, unhold, released]
    · simp [share, hstatus, unhold, released]
    · simp only [unhold]
      omega
  | @consume r sel hsel hstatus hkey =>
    obtain ⟨s, hs, hrs⟩ := h.placed r hsel.mem hstatus
    have hb := h.bounded s hs
    have hq := quantity_pos (h.checked r hsel.mem)
    have hcov := h.covers hsel.mem hstatus hs hrs
    refine h.moved hsel ⟨rfl, rfl, rfl⟩ (by simp [reservationChecks, consumed, hq])
      (fun _ => ⟨rfl, rfl⟩) hs hrs (by simp only [Bool.and_eq_true, decide_eq_true_eq]; omega)
      ?_ ?_ ?_
    · simp [share, hstatus, deduct, consumed]
    · simp [share, hstatus, deduct, consumed]
    · simp only [deduct]
      omega

theorem Ledger.effects (h : Ledger base total db) (he : Effects K db db') :
    Ledger base total db' :=
  he.invariant h fun _ _ ha heff => ha.effect heff

/-- Every step of the inventory service keeps the ledger. -/
theorem Ledger.step {a : Action} (h : Ledger base total db)
    (hs : Inventory.step db a = some db') : Ledger base total db' := by
  cases a with
  | reserve q =>
    cases hs
    cases hex : Inventory.reserve q db with
    | ok r => exact h.effect (K := fun _ => False) (reserve_effect hex)
    | error e => exact h
  | release q =>
    cases hs
    cases hex : Inventory.release q db with
    | ok r => exact h.effects (K := fun _ => False) (release_effects hex)
    | error e => exact h
  | consume q =>
    cases hs
    cases hex : Inventory.consume q db with
    | ok r => exact h.effects (consume_effects hex)
    | error e => exact h
  | reap visible =>
    cases hs
    cases hex : reapExpiredReservations visible db with
    | ok r =>
      exact h.effects (K := fun _ => False) (reapExpiredReservations_effects h.reservationKeys hex)
    | error e => exact h
  | environment =>
    cases hs
    exact ⟨h.stockIds, h.stockKeys, h.reservationKeys, h.checked, h.placed, h.base_nonneg,
      h.reserved, h.onHand, h.bounded⟩

/-! ## The inconsistent branches are unreachable -/

/-- Not a CHECK violation, and not a report of an inconsistent ledger. -/
def Benign (e : InventoryError) : Prop :=
  e ≠ .check ∧ e ≠ .operation .ledgerInconsistent ∧ e ≠ .operation .expiredInconsistent

theorem moveStock_error {r : Reservation} {guard : Stock → Bool} {f : Stock → Stock}
    {failure : OperationFailure} {e : InventoryError} (h : Ledger base total db)
    (hf : ∀ s ∈ db.inventory.stock, guard s = true → stockChecks (f s) = true)
    (he : moveStock db r guard f failure = .error e) : e = .operation failure := by
  unfold moveStock at he
  dsimp only at he
  split at he
  · unfold updateStock at he
    dsimp only at he
    split at he
    · cases he
    · rename_i hall
      refine absurd (List.all_eq_true.mpr fun s hs => ?_) hall
      obtain ⟨s₀, hs₀, rfl⟩ := mem_updateWhere.mp hs
      split
      · rename_i hsel
        rw [Bool.and_eq_true] at hsel
        exact hf s₀ hs₀ hsel.2
      · have := h.bounded s₀ hs₀
        simp only [stockChecks, Bool.and_eq_true, decide_eq_true_eq]
        omega
  · cases he
    rfl

theorem moveReservation_error {t : TenantId} {id : ReservationId} {st : ReservationStatus}
    {rid : RequestId} {f : Reservation → Reservation} {e : InventoryError}
    (hchecked : ∀ r ∈ db.inventory.reservations, reservationChecks r = true)
    (hf : ∀ r ∈ db.inventory.reservations, r.status = st → reservationChecks (f r) = true)
    (he : moveReservation db t id st rid f = .error e) : e = .operation .stateChanged := by
  unfold moveReservation at he
  dsimp only at he
  split at he
  · unfold updateReservations at he
    dsimp only at he
    split at he
    · cases he
    · rename_i hall
      refine absurd (List.all_eq_true.mpr fun r hr => ?_) hall
      obtain ⟨r₀, hr₀, rfl⟩ := mem_updateWhere.mp hr
      split
      · rename_i hsel
        exact hf r₀ hr₀ (ownedIn_iff.mp hsel).2.1
      · exact hchecked r₀ hr₀
  · cases he
    rfl

theorem benign_conflict (code : ConflictCode) (message : String) :
    Benign (.conflict code message) := ⟨nofun, nofun, nofun⟩

theorem benign_invalid (field : InvalidField) (reason : String) :
    Benign (.invalid field reason) := ⟨nofun, nofun, nofun⟩

theorem benign_operation {failure : OperationFailure} (h₁ : failure ≠ .ledgerInconsistent)
    (h₂ : failure ≠ .expiredInconsistent) : Benign (.operation failure) :=
  ⟨nofun, by simpa using h₁, by simpa using h₂⟩

theorem benign_stateChanged : Benign (.operation .stateChanged) :=
  benign_operation (by decide) (by decide)

/-- `r`, or what it was rewritten to, is held. -/
def Held (db : Db) (r : Reservation) : Prop :=
  ∃ r' ∈ db.inventory.reservations, r'.status = .reserved ∧ r'.quantity = r.quantity ∧
    isStockOf r' = isStockOf r

theorem Ledger.held_quantity (h : Ledger base total db) {r : Reservation} (hr : Held db r) :
    0 < r.quantity := by
  obtain ⟨r', hr', -, hq, -⟩ := hr
  rw [← hq]
  exact quantity_pos (h.checked r' hr')

/-- A held reservation's stock row passes the guard, so the UPDATE of it goes
through. -/
theorem Ledger.moveStock_ne_error (h : Ledger base total db) {r : Reservation}
    {guard : Stock → Bool} {f : Stock → Stock} {failure : OperationFailure}
    (hr : Held db r) (hguard : ∀ s ∈ db.inventory.stock, r.quantity ≤ s.reservedQuantity → guard s = true)
    (hf : ∀ s ∈ db.inventory.stock, guard s = true → stockChecks (f s) = true)
    (e : InventoryError) : moveStock db r guard f failure ≠ .error e := by
  intro he
  obtain ⟨r', hr', hstatus, hq, hstock⟩ := hr
  obtain ⟨s, hs, hrs⟩ := h.placed r' hr' hstatus
  have hcov := h.covers hr' hstatus hs hrs
  rw [hq] at hcov
  rw [hstock] at hrs
  have haff : affected (fun s => isStockOf r s && guard s) db.inventory.stock = 1 := by
    refine h.stockKeys.affected_eq_one hs (by simp [hrs, hguard s hs hcov]) fun s' _ hsel => ?_
    rw [Bool.and_eq_true] at hsel
    exact (isStockOf_iff.mp hsel.1).trans (isStockOf_iff.mp hrs).symm
  have herr := moveStock_error h hf he
  unfold moveStock at he
  dsimp only at he
  rw [if_pos haff] at he
  unfold updateStock at he
  dsimp only at he
  split at he
  · cases he
  · cases he
    cases herr

theorem validateFenceFields_benign {r : Option RequestId} {t : Option Nat}
    {e : InventoryError} (he : validateFenceFields r t = .error e) : Benign e := by
  unfold validateFenceFields at he
  split at he
  · have herr := map_error he
    unfold validateRequestId at herr
    split at herr
    · cases herr
      exact benign_invalid _ _
    · split at herr
      · cases herr
        exact benign_invalid _ _
      · cases herr
  all_goals
    cases he
    exact benign_invalid _ _

theorem validateQuantity_benign {n : Nat} {m : String} {e : InventoryError}
    (he : validateQuantity n m = .error e) : Benign e := by
  unfold validateQuantity at he
  split at he
  · cases he
    exact benign_invalid _ _
  · split at he
    · cases he
      exact benign_invalid _ _
    · cases he

theorem lockCurrentCheckoutFence_benign {t : TenantId} {r : RequestId} {token : Nat}
    {e : InventoryError} (he : lockCurrentCheckoutFence db t r token = .error e) :
    Benign e := by
  unfold lockCurrentCheckoutFence at he
  split at he
  · cases he
  · cases he
    exact benign_conflict _ _

section Operations

variable (h : Ledger base total db)

include h

/-- The stock checks of a guarded hold, release and deduction. -/
theorem Ledger.hold_checks (q : Int) (hq : 0 < q) : ∀ s ∈ db.inventory.stock,
    decide (q ≤ s.availableQuantity) = true → stockChecks (hold q s) = true := by
  intro s hs hg
  have hb := h.bounded s hs
  have hle : q ≤ s.onHandQuantity - s.reservedQuantity := of_decide_eq_true hg
  simp only [stockChecks, Bool.and_eq_true, decide_eq_true_eq]
  simp only [hold]
  omega

theorem Ledger.unhold_checks (q : Int) (hq : 0 < q) : ∀ s ∈ db.inventory.stock,
    decide (q ≤ s.reservedQuantity) = true → stockChecks (unhold q s) = true := by
  intro s hs hg
  have hb := h.bounded s hs
  have hle : q ≤ s.reservedQuantity := of_decide_eq_true hg
  simp only [stockChecks, Bool.and_eq_true, decide_eq_true_eq]
  simp only [unhold]
  omega

theorem Ledger.deduct_checks (q : Int) : ∀ s ∈ db.inventory.stock,
    (decide (q ≤ s.onHandQuantity) && decide (q ≤ s.reservedQuantity)) = true →
      stockChecks (deduct q s) = true := by
  intro s hs hg
  have hb := h.bounded s hs
  rw [Bool.and_eq_true, decide_eq_true_iff, decide_eq_true_iff] at hg
  simp only [stockChecks, Bool.and_eq_true, decide_eq_true_eq]
  simp only [deduct]
  omega

/-- Rewriting a reservation of positive quantity to a lawful status. -/
theorem Ledger.reservation_error {t : TenantId} {id : ReservationId} {st : ReservationStatus}
    {rid : RequestId} {f : Reservation → Reservation} {e : InventoryError} {db₁ : Db}
    (hsame : db₁.inventory.reservations = db.inventory.reservations)
    (hf : ∀ r, 0 < r.quantity → reservationChecks r = true → r.status = st →
      reservationChecks (f r) = true)
    (he : moveReservation db₁ t id st rid f = .error e) : Benign e := by
  rw [moveReservation_error (by rw [hsame]; exact h.checked) (by
    rw [hsame]
    exact fun r hr hst => hf r (quantity_pos (h.checked r hr)) (h.checked r hr) hst) he]
  exact benign_stateChanged

/-- Re-acquiring the stock of a released reservation fails only because the
stock is gone. -/
theorem Ledger.reacquire_stock {r : Reservation} {failure : OperationFailure}
    {e : InventoryError} (hr : r ∈ db.inventory.reservations)
    (he : moveStock db r (fun s => decide (r.quantity ≤ s.availableQuantity))
      (hold r.quantity) failure = .error e) : e = .operation failure :=
  moveStock_error h (h.hold_checks _ (quantity_pos (h.checked r hr))) he

theorem Ledger.reacquire_row {t : TenantId} {id : ReservationId} {rid : RequestId}
    {now token : Nat} {db₁ : Db} {e : InventoryError}
    (hsame : db₁.inventory.reservations = db.inventory.reservations)
    (he : moveReservation db₁ t id .released rid (reacquired now token) = .error e) :
    Benign e :=
  h.reservation_error hsame
    (fun x hx _ _ => by simp [reservationChecks, reacquired, hx]) he

/-- A renewal or a rebinding never breaks a CHECK. -/
theorem Ledger.renew_benign {t : TenantId} {id : ReservationId} {rid : RequestId}
    {f : Reservation → Reservation} {e : InventoryError} (hf : ∀ x, Renewal x (f x))
    (he : moveReservation db t id .reserved rid f = .error e) : Benign e :=
  h.reservation_error rfl (fun x _ hc _ => by
    unfold reservationChecks at hc ⊢
    rw [(hf x).quantity, (hf x).status, (hf x).releasedAt, (hf x).consumedAt]
    exact hc) he

theorem Ledger.reserveAgain_benign {q : ReserveQuery} {rid : RequestId} {token : Nat}
    {r : Reservation} {s : Stock} {e : InventoryError} (hr : r ∈ db.inventory.reservations)
    (he : reserveAgain q rid token r s db = .error e) : Benign e := by
  unfold reserveAgain at he
  split at he
  · cases he
    exact benign_conflict _ _
  · split at he
    · cases he
      exact benign_conflict _ _
    · split at he
      · rcases bind_error he with h₁ | ⟨db₁, h₁, h₂⟩
        · rw [h.reacquire_stock hr h₁]
          exact benign_operation (by decide) (by decide)
        · obtain ⟨rfl, -⟩ := Inventory.moveStock_ok h₁
          rcases bind_error h₂ with h₃ | ⟨db₂, -, h₄⟩
          · exact h.reacquire_row (by rfl) h₃
          · cases h₄
      · cases he
      · rcases bind_error he with h₁ | ⟨db₁, -, h₂⟩
        · unfold renewHold at h₁
          split at h₁
          · exact h.renew_benign (renewal_renewed _ _) h₁
          · cases h₁
        · cases h₂

theorem Ledger.reserve_benign {q : ReserveQuery} {e : InventoryError}
    (he : Inventory.reserve q db = .error e) : Benign e := by
  rcases bind_error he with hv | ⟨⟨rid, token⟩, hv, he⟩
  · rcases bind_error hv with hq | ⟨u, -, hf⟩
    · exact validateQuantity_benign hq
    · exact validateFenceFields_benign hf
  · obtain ⟨u, hq, -⟩ := bind_ok hv
    have hpos := validateQuantity_ok hq
    dsimp only at he
    unfold reserveTx at he
    split at he
    · cases he
      exact benign_operation (by decide) (by decide)
    · rcases bind_error he with hl | ⟨-, -, he⟩
      · exact lockCurrentCheckoutFence_benign hl
      · split at he
        · rename_i r s hlock
          obtain ⟨hr, -, -, -⟩ := lockReservation_some hlock
          rcases bind_error he with h₁ | ⟨⟨out, db₁⟩, -, h₂⟩
          · exact h.reserveAgain_benign hr h₁
          · cases h₂
        · split at he
          · cases he
          · rename_i s hcand
            obtain ⟨hs, hc⟩ := candidate_some hcand
            rcases bind_error he with h₁ | ⟨db₁, h₁, he⟩
            · -- the chosen stock row has the quantity available
              unfold updateStock at h₁
              dsimp only at h₁
              split at h₁
              · cases h₁
              · rename_i hall
                refine absurd (List.all_eq_true.mpr fun s' hs' => ?_) hall
                obtain ⟨s₀, hs₀, rfl⟩ := mem_updateWhere.mp hs'
                split
                · rename_i hid
                  rw [h.stockIds.eq_of_mem hs₀ hs (of_decide_eq_true hid)]
                  refine h.hold_checks q.quantity (by omega) s hs ?_
                  simp only [isCandidate, Bool.and_eq_true] at hc
                  exact hc.2
                · have := h.bounded s₀ hs₀
                  simp only [stockChecks, Bool.and_eq_true, decide_eq_true_eq]
                  omega
            · rcases bind_error he with h₂ | ⟨db₂, -, he⟩
              · unfold insertReservation at h₂
                split at h₂
                · cases h₂
                  exact ⟨nofun, nofun, nofun⟩
                · split at h₂
                  · rename_i hchk
                    simp [reservationChecks, newReservation, hpos] at hchk
                  · cases h₂
              · cases he

theorem Ledger.releaseLocked_benign {q : ReleaseBody} {rid : RequestId} {token : Nat}
    {r : Reservation} {s : Stock} {e : InventoryError} (hr : r ∈ db.inventory.reservations)
    (hkey : reservationKey r = (q.tenantId, q.reservationId))
    (he : releaseLocked q rid token r s db = .error e) : Benign e := by
  unfold releaseLocked at he
  split at he
  · cases he
    exact benign_conflict _ _
  · split at he
    · cases he
      exact benign_conflict _ _
    · rename_i howner
      rw [not_not] at howner
      split at he
      · cases he
      · cases he
        exact benign_conflict _ _
      · rename_i hstatus
        have hsel := selects_owned hr hkey hstatus howner
        rcases bind_error he with h₁ | ⟨db₁, h₁, he⟩
        · unfold rebindHold at h₁
          split at h₁
          · exact h.renew_benign (renewal_rebound _) h₁
          · cases h₁
        · -- the reservation is held by this generation now
          have hheld : Held db₁ r ∧ Ledger base total db₁ := by
            unfold rebindHold at h₁
            split at h₁
            · rw [moveReservation_ok h₁]
              exact ⟨⟨rebound token r, mem_updateWhere_of_pos hr hsel.selected, hstatus, rfl,
                rfl⟩, h.effect (K := fun _ => False) (.renew hsel hstatus (renewal_rebound token))⟩
            · cases h₁
              exact ⟨⟨r, hr, hstatus, rfl, rfl⟩, h⟩
          obtain ⟨hheld, hl⟩ := hheld
          rcases bind_error he with h₂ | ⟨db₂, h₂, he⟩
          · exact absurd h₂ (hl.moveStock_ne_error hheld (fun s _ hle => decide_eq_true hle)
              (hl.unhold_checks _ (hl.held_quantity hheld)) e)
          · obtain ⟨rfl, -⟩ := Inventory.moveStock_ok h₂
            rcases bind_error he with h₃ | ⟨db₃, -, he⟩
            · exact hl.reservation_error (by rfl)
                (fun x hx _ _ => by simp [reservationChecks, released, hx]) h₃
            · cases he

theorem Ledger.release_benign {q : ReleaseBody} {e : InventoryError}
    (he : Inventory.release q db = .error e) : Benign e := by
  rcases bind_error he with hv | ⟨⟨rid, token⟩, -, he⟩
  · rcases bind_error hv with hq | ⟨u, -, hf⟩
    · exact validateQuantity_benign hq
    · exact validateFenceFields_benign hf
  · rcases bind_error he with hl | ⟨-, -, he⟩
    · exact lockCurrentCheckoutFence_benign hl
    · split at he
      · cases he
      · rename_i r s hlock
        obtain ⟨hr, hkey, -, -⟩ := lockReservation_some hlock
        rcases bind_error he with h₁ | ⟨⟨out, db₁⟩, -, h₂⟩
        · exact h.releaseLocked_benign hr hkey h₁
        · cases h₂

theorem Ledger.holdForConsume_benign {t : TenantId} {id : ReservationId} {rid : RequestId}
    {token : Nat} {r : Reservation} {e : InventoryError} (hr : r ∈ db.inventory.reservations)
    (he : holdForConsume t id rid token r db = .error e) : Benign e := by
  unfold holdForConsume at he
  split at he
  · cases he
  · rcases bind_error he with h₁ | ⟨db₁, h₁, h₂⟩
    · rw [h.reacquire_stock hr h₁]
      exact benign_operation (by decide) (by decide)
    · obtain ⟨rfl, -⟩ := Inventory.moveStock_ok h₁
      exact h.reacquire_row (by rfl) h₂
  · split at he
    · exact h.renew_benign (renewal_renewed _ _) he
    · split at he
      · exact h.renew_benign (renewal_rebound _) he
      · cases he

theorem Ledger.consumeOne_benign {t : TenantId} {rid : RequestId} {token : Nat}
    {c : ConsumeReservation} {e : InventoryError}
    (he : consumeOne t rid token c db = .error e) : Benign e := by
  unfold consumeOne at he
  split at he
  · cases he
    exact benign_conflict _ _
  · rename_i r s hlock
    obtain ⟨hr, hkey, -, -⟩ := lockReservation_some hlock
    split at he
    · cases he
      exact benign_conflict _ _
    · split at he
      · cases he
        exact benign_conflict _ _
      · rename_i howner
        rw [not_not] at howner
        split at he
        · cases he
        · rename_i hnot
          rcases bind_error he with h₁ | ⟨db₁, h₁, he⟩
          · exact h.holdForConsume_benign hr h₁
          · obtain ⟨heff, r', hr', -, hst', -, hq', hstock'⟩ :=
              holdForConsume_effects (K := fun _ => False) hr hkey howner hnot h₁
            have hl := h.effects heff
            rcases bind_error he with h₂ | ⟨db₂, h₂, he⟩
            · refine absurd h₂ (hl.moveStock_ne_error ⟨r', hr', hst', hq', hstock'⟩ ?_
                (hl.deduct_checks _) e)
              intro s hs hle
              have := hl.bounded s hs
              simp only [Bool.and_eq_true, decide_eq_true_eq]
              omega
            · obtain ⟨rfl, -⟩ := Inventory.moveStock_ok h₂
              rcases bind_error he with h₃ | ⟨db₃, -, he⟩
              · exact hl.reservation_error (by rfl)
                  (fun x hx _ _ => by simp [reservationChecks, consumed, hx]) h₃
              · cases he

end Operations

theorem validateReservations_benign {seen : List ReservationId} {cs : List ConsumeReservation}
    {e : InventoryError} (he : validateReservations seen cs = .error e) : Benign e := by
  induction cs generalizing seen with
  | nil => cases he
  | cons c cs ih =>
    unfold validateReservations at he
    split at he
    · cases he
      exact benign_invalid _ _
    · split at he
      · cases he
        exact benign_invalid _ _
      · exact ih he

theorem Ledger.consumeAll_benign {t : TenantId} {rid : RequestId} {token : Nat} {n : Int}
    {cs : List ConsumeReservation} {e : InventoryError} (h : Ledger base total db)
    (he : consumeAll t rid token n cs db = .error e) : Benign e := by
  induction cs generalizing n db with
  | nil => cases he
  | cons c cs ih =>
    rcases bind_error he with h₁ | ⟨⟨m, db₁⟩, h₁, he⟩
    · exact h.consumeOne_benign h₁
    · dsimp only at he
      split at he
      · cases he
        exact benign_operation (by decide) (by decide)
      · exact ih (h.effects (consumeOne_effects (K := fun _ => True) trivial h₁)) he

theorem Ledger.consume_benign {q : ConsumeBody} {e : InventoryError} (h : Ledger base total db)
    (he : Inventory.consume q db = .error e) : Benign e := by
  rcases bind_error he with hv | ⟨⟨rid, token⟩, -, he⟩
  · unfold validateConsume at hv
    split at hv
    · cases hv
      exact benign_invalid _ _
    · rcases bind_error hv with hf | ⟨fence, -, hv⟩
      · exact validateFenceFields_benign hf
      · rcases bind_error hv with hr | ⟨u, -, hv⟩
        · exact validateReservations_benign hr
        · cases hv
  · rcases bind_error he with hl | ⟨-, -, he⟩
    · exact lockCurrentCheckoutFence_benign hl
    · rcases bind_error he with h₁ | ⟨⟨n, db₁⟩, -, h₂⟩
      · exact h.consumeAll_benign h₁
      · cases h₂

theorem Ledger.reapAll_benign {rs : List Reservation} {e : InventoryError}
    (h : Ledger base total db)
    (hrs : ∀ r ∈ rs, r ∈ db.inventory.reservations ∧ isExpired db.now r = true)
    (hnd : (rs.map reservationKey).Nodup) (he : reapAll rs db = .error e) : Benign e := by
  induction rs generalizing db with
  | nil => cases he
  | cons r rs ih =>
    obtain ⟨hr, hexp⟩ := hrs r (by simp)
    have hstatus : r.status = .reserved := (of_decide_eq_true hexp).1
    rcases bind_error he with h₁ | ⟨db₁, h₁, he⟩
    · rcases bind_error h₁ with h₂ | ⟨db₂, h₂, h₃⟩
      · exact absurd h₂ (h.moveStock_ne_error ⟨r, hr, hstatus, rfl, rfl⟩
          (fun s _ hle => decide_eq_true hle)
          (h.unhold_checks _ (quantity_pos (h.checked r hr))) e)
      · obtain ⟨rfl, -⟩ := Inventory.moveStock_ok h₂
        dsimp only at h₃
        split at h₃
        · unfold updateReservations at h₃
          dsimp only at h₃
          split at h₃
          · cases h₃
          · rename_i hall
            refine absurd (List.all_eq_true.mpr fun x hx => ?_) hall
            obtain ⟨x₀, hx₀, rfl⟩ := mem_updateWhere.mp hx
            have hc := h.checked x₀ hx₀
            split
            · simp [reservationChecks, released, quantity_pos hc]
            · exact hc
        · cases h₃
          exact benign_stateChanged
    · rcases bind_error he with h₂ | ⟨⟨n, db₂⟩, -, h₃⟩
      · rw [List.map_cons, List.nodup_cons] at hnd
        exact ih (h.effect (reapOne_effect (K := fun _ => False) hr hexp h₁))
          (reapOne_keeps (fun x hx => hrs x (by simp [hx])) hnd.1 h₁) hnd.2 h₂
      · cases h₃

theorem Ledger.reap_benign {visible : Reservation → Bool} {e : InventoryError}
    (h : Ledger base total db) (he : reapExpiredReservations visible db = .error e) :
    Benign e :=
  h.reapAll_benign (fun _ hr => reap_batch hr) (reap_batch_nodup h.reservationKeys) he

theorem Ledger.failure_benign {a : Action} {e : InventoryError} (h : Ledger base total db)
    (he : failure db a = some e) : Benign e := by
  cases a with
  | reserve q => exact h.reserve_benign (failureOf_eq_some he)
  | release q => exact h.release_benign (failureOf_eq_some he)
  | consume q => exact h.consume_benign (failureOf_eq_some he)
  | reap visible => exact h.reap_benign (failureOf_eq_some he)
  | environment => cases he

/-! ## Conservation over runs -/

/-- Every run from a consistent ledger conserves stock: what is reserved stays
a constant plus the held quantities, what is on hand plus what was consumed
stays constant, and neither a CHECK nor an inconsistency report is reached. -/
theorem stock_conserved {base total : Nat → Int} {db₀ db : Db} (h0 : Ledger base total db₀)
    (hr : Reach step (fun _ _ => True) db₀ db) :
    (∀ s ∈ db.inventory.stock,
      s.reservedQuantity = base s.id + quantityIn .reserved s db.inventory.reservations ∧
      s.onHandQuantity + quantityIn .consumed s db.inventory.reservations = total s.id ∧
      0 ≤ s.reservedQuantity ∧ s.reservedQuantity ≤ s.onHandQuantity) ∧
    ∀ a e, failure db a = some e → e ≠ .check ∧ e ≠ .operation .ledgerInconsistent ∧
      e ≠ .operation .expiredInconsistent := by
  have h : Ledger base total db := hr.invariant h0 fun _ _ _ ha _ hs => ha.step hs
  refine ⟨fun s hs => ?_, fun a e he => h.failure_benign he⟩
  exact ⟨h.reserved s hs, h.onHand s hs, h.bounded s hs⟩

/-- Ten pieces on hand, one of them reserved outside the ledger. -/
def sampleStart : Db where
  now := 0
  nextUuid := 0
  checkout :=
    { attempts := [⟨1, ⟨1, 1⟩, ⟨1, 1, 1, none, [], 1, none, .other 0, .card, ⟨1, 1⟩, false, 0⟩,
        .failed, none, none, none, none, none, 7, none, 0⟩]
      orders := []
      carts := []
      promotions := []
      tasks := []
      reconciliations := []
      outbox := []
      exposures := []
      analytics := [] }
  payment := ⟨0, [], [], []⟩
  inventory :=
    { variants := [⟨1, 1, 1, true, true⟩]
      locations := [⟨1, 1, 1, true⟩]
      stock := [⟨1, 1, 1, 1, 10, 1⟩]
      reservations := [] }

/-- Three pieces are reserved and consumed, two reserved and released, and
four reserved until they expire and are consumed after all. -/
def sampleRun : List Action :=
  [.reserve ⟨1, .raw 1, 1, 3, false, some ⟨1, 1⟩, some 7⟩,
    .reserve ⟨1, .raw 2, 1, 2, false, some ⟨1, 1⟩, some 7⟩,
    .consume ⟨1, some ⟨1, 1⟩, some 7, [⟨.raw 1, 1, 3, none⟩]⟩,
    .release ⟨1, .raw 2, 1, 2, none, some ⟨1, 1⟩, some 7⟩,
    .reserve ⟨1, .raw 3, 1, 4, false, some ⟨1, 1⟩, some 7⟩,
    .environment (16 * minute) sampleStart.checkout sampleStart.payment
      sampleStart.inventory.variants sampleStart.inventory.locations,
    .reap fun _ => true,
    .consume ⟨1, some ⟨1, 1⟩, some 7, [⟨.raw 3, 1, 4, none⟩]⟩]

def sampleState : Db := (run step sampleStart sampleRun).getD sampleStart

theorem sampleStart_ledger : Ledger (fun _ => 1) (fun _ => 10) sampleStart := by
  constructor <;> simp [sampleStart, KeyUnique, quantityIn]

theorem reach_sampleState : Reach step (fun _ _ => True) sampleStart sampleState := by
  unfold sampleState
  cases h : run step sampleStart sampleRun with
  | none => exact Reach.refl
  | some db => exact reach_of_run h

theorem stock_conserved_sample :
    sampleState.inventory.stock.map (fun s => (s.onHandQuantity, s.reservedQuantity)) =
      [(3, 1)] ∧
    ∀ s ∈ sampleState.inventory.stock,
      s.onHandQuantity + quantityIn .consumed s sampleState.inventory.reservations = 10 :=
  ⟨by decide, fun s hs => ((stock_conserved sampleStart_ledger reach_sampleState).1 s hs).2.1⟩

end CommercePlayground.Inventory
