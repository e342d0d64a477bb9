/-
CommercePlayground.Inventory.RowTheorems — the reservations row by row.

A reservation is inserted by `reserve` and by nothing else, and from then on it keeps
what it is of and to whom it belongs (`SameReservation`): the other transactions rewrite
its status, its times and its generation, and a consumed row not at all. So a consume that
succeeds found every reservation it names with the SKU and the quantity of the request
(`consume_row`).
-/
import CommercePlayground.Lib.Rows
import CommercePlayground.Inventory.OutcomeTheorems

namespace CommercePlayground.Inventory

open Lib

/-! ## Rewritten rows -/

/-- A reservation keeps what it is of and to whom it belongs; a consumed one stays. -/
structure SameReservation (r r' : Reservation) : Prop where
  key : reservationKey r' = reservationKey r
  sku : r'.sku = r.sku
  variantId : r'.variantId = r.variantId
  locationId : r'.locationId = r.locationId
  quantity : r'.quantity = r.quantity
  ownerRequestId : r'.ownerRequestId = r.ownerRequestId
  consumed : r.status = .consumed → r' = r

theorem SameReservation.refl (r : Reservation) : SameReservation r r :=
  ⟨rfl, rfl, rfl, rfl, rfl, rfl, fun _ => rfl⟩

theorem SameReservation.trans {a b c : Reservation} (h₁ : SameReservation a b)
    (h₂ : SameReservation b c) : SameReservation a c where
  key := h₂.key.trans h₁.key
  sku := h₂.sku.trans h₁.sku
  variantId := h₂.variantId.trans h₁.variantId
  locationId := h₂.locationId.trans h₁.locationId
  quantity := h₂.quantity.trans h₁.quantity
  ownerRequestId := h₂.ownerRequestId.trans h₁.ownerRequestId
  consumed := fun h => by
    obtain rfl := h₁.consumed h
    exact h₂.consumed h

/-- Every reservation was rewritten in its place, and none inserted. -/
abbrev RowsKept (db db' : Db) : Prop :=
  Rewrites SameReservation db.inventory.reservations db'.inventory.reservations

theorem RowsKept.refl (db : Db) : RowsKept db db := Rewrites.refl .refl _

theorem RowsKept.trans {a b c : Db} (h₁ : RowsKept a b) (h₂ : RowsKept b c) : RowsKept a c :=
  Rewrites.trans (fun _ _ _ => .trans) h₁ h₂

/-! ## Statements -/

theorem moveStock_rows {db db' : Db} {r : Reservation} {guard : Stock → Bool}
    {f : Stock → Stock} {e : OperationFailure} (h : moveStock db r guard f e = .ok db') :
    RowsKept db db' := by
  obtain ⟨rfl, -⟩ := moveStock_ok h
  exact .refl db

/-- A row that is not consumed may be rewritten. -/
theorem moveReservation_rows {db db' : Db} {t : TenantId} {id : ReservationId}
    {st : ReservationStatus} {rid : RequestId} {f : Reservation → Reservation}
    (h : moveReservation db t id st rid f = .ok db') (hst : st ≠ .consumed)
    (hf : ∀ r, r.status ≠ .consumed → SameReservation r (f r)) : RowsKept db db' := by
  rw [moveReservation_ok h]
  refine Rewrites.update .refl fun r hsel => hf r ?_
  rw [(ownedIn_iff.mp hsel).2.1]
  exact hst

section Rewrites

variable {now token : Nat} {r : Reservation} (h : r.status ≠ .consumed)

include h

theorem same_reacquired : SameReservation r (reacquired now token r) :=
  ⟨rfl, rfl, rfl, rfl, rfl, rfl, fun hc => absurd hc h⟩

theorem same_renewed : SameReservation r (renewed now token r) :=
  ⟨rfl, rfl, rfl, rfl, rfl, rfl, fun hc => absurd hc h⟩

theorem same_rebound : SameReservation r (rebound token r) :=
  ⟨rfl, rfl, rfl, rfl, rfl, rfl, fun hc => absurd hc h⟩

theorem same_released : SameReservation r (released now r) :=
  ⟨rfl, rfl, rfl, rfl, rfl, rfl, fun hc => absurd hc h⟩

theorem same_consumed : SameReservation r (consumed now r) :=
  ⟨rfl, rfl, rfl, rfl, rfl, rfl, fun hc => absurd hc h⟩

end Rewrites

/-! ## Transactions -/

theorem reserveAgain_rows {q : ReserveQuery} {rid : RequestId} {token : Nat} {r : Reservation}
    {s : Stock} {db db' : Db} {out : ReserveOutcome}
    (h : reserveAgain q rid token r s db = .ok (out, db')) : RowsKept db db' := by
  unfold reserveAgain at h
  split at h
  · cases h
  · split at h
    · cases h
    · split at h
      · obtain ⟨db₁, h₁, h⟩ := bind_ok h
        obtain ⟨db₂, h₂, h⟩ := bind_ok h
        cases h
        exact (moveStock_rows h₁).trans
          (moveReservation_rows h₂ nofun fun _ => same_reacquired)
      · cases h
        exact .refl _
      · obtain ⟨db₁, h₁, h⟩ := bind_ok h
        cases h
        unfold renewHold at h₁
        split at h₁
        · exact moveReservation_rows h₁ nofun fun _ => same_renewed
        · cases h₁
          exact .refl _

/-- **A reserve inserts the reservation it asks for, or none.** -/
theorem reserve_rows {q : ReserveQuery} {db db' : Db} {out : Option ReserveOutcome}
    (h : reserve q db = .ok (out, db')) : RowsKept db db' ∨
      ∃ s ∈ db.inventory.stock, isCandidate db q s = true ∧
        db'.inventory.reservations = db.inventory.reservations ++ [newReservation db q s] := by
  obtain ⟨⟨rid, token⟩, -, h⟩ := bind_ok h
  dsimp only at h
  unfold reserveTx at h
  split at h
  · cases h
  · obtain ⟨-, -, h⟩ := bind_ok h
    split at h
    · obtain ⟨⟨out', db₁⟩, h₁, h⟩ := bind_ok h
      cases h
      exact .inl (reserveAgain_rows h₁)
    · split at h
      · cases h
        exact .inl (.refl _)
      · rename_i s hcand
        obtain ⟨hs, hc⟩ := candidate_some hcand
        obtain ⟨db₁, h₁, h⟩ := bind_ok h
        obtain ⟨db₂, h₂, h⟩ := bind_ok h
        cases h
        rw [updateStock_ok h₁] at h₂
        obtain ⟨rfl, -⟩ := insertReservation_ok h₂
        exact .inr ⟨s, hs, hc, rfl⟩

theorem release_rows {q : ReleaseBody} {db db' : Db} {out : Option ReleaseOutcome}
    (h : release q db = .ok (out, db')) : RowsKept db db' := by
  obtain ⟨⟨rid, token⟩, -, h⟩ := bind_ok h
  obtain ⟨-, -, h⟩ := bind_ok h
  split at h
  · cases h
    exact .refl _
  · obtain ⟨⟨out', db₁⟩, h₁, h⟩ := bind_ok h
    cases h
    unfold releaseLocked at h₁
    split at h₁
    · cases h₁
    · split at h₁
      · cases h₁
      · split at h₁
        · cases h₁
          exact .refl _
        · cases h₁
        · obtain ⟨db₂, h₂, h₁⟩ := bind_ok h₁
          obtain ⟨db₃, h₃, h₁⟩ := bind_ok h₁
          obtain ⟨db₄, h₄, h₁⟩ := bind_ok h₁
          cases h₁
          refine RowsKept.trans ?_ ((moveStock_rows h₃).trans
            (moveReservation_rows h₄ nofun fun _ => same_released))
          unfold rebindHold at h₂
          split at h₂
          · exact moveReservation_rows h₂ nofun fun _ => same_rebound
          · cases h₂
            exact .refl _

theorem holdForConsume_rows {t : TenantId} {id : ReservationId} {rid : RequestId} {token : Nat}
    {r : Reservation} {db db' : Db} (h : holdForConsume t id rid token r db = .ok db') :
    RowsKept db db' := by
  unfold holdForConsume at h
  split at h
  · cases h
    exact .refl _
  · obtain ⟨db₁, h₁, h₂⟩ := bind_ok h
    exact (moveStock_rows h₁).trans (moveReservation_rows h₂ nofun fun _ => same_reacquired)
  · split at h
    · exact moveReservation_rows h nofun fun _ => same_renewed
    · split at h
      · exact moveReservation_rows h nofun fun _ => same_rebound
      · cases h
        exact .refl _

/-- A reservation as a consume names it. -/
def IsNamed (t : TenantId) (c : ConsumeReservation) (r : Reservation) : Prop :=
  reservationKey r = (t, c.reservationId) ∧ r.sku = c.sku ∧ r.quantity = c.quantity

theorem SameReservation.named {t : TenantId} {c : ConsumeReservation} {r r' : Reservation}
    (h : SameReservation r r') : IsNamed t c r' ↔ IsNamed t c r := by
  unfold IsNamed
  rw [h.key, h.sku, h.quantity]

theorem consumeOne_rows {t : TenantId} {rid : RequestId} {token : Nat} {c : ConsumeReservation}
    {db db' : Db} {n : Int} (h : consumeOne t rid token c db = .ok (n, db')) :
    RowsKept db db' ∧ ∃ r ∈ db.inventory.reservations, IsNamed t c r := by
  unfold consumeOne at h
  split at h
  · cases h
  · rename_i r s hlock
    obtain ⟨hr, hkey, -, -⟩ := lockReservation_some hlock
    split at h
    · cases h
    · rename_i hsame
      simp only [sameIdentity, Bool.and_eq_false_iff, not_or, Bool.not_eq_false,
        decide_eq_true_eq] at hsame
      refine ⟨?_, r, hr, hkey, hsame.1⟩
      split at h
      · cases h
      · split at h
        · cases h
          exact .refl _
        · obtain ⟨db₁, h₁, h⟩ := bind_ok h
          obtain ⟨db₂, h₂, h⟩ := bind_ok h
          obtain ⟨db₃, h₃, h⟩ := bind_ok h
          cases h
          exact (holdForConsume_rows h₁).trans ((moveStock_rows h₂).trans
            (moveReservation_rows h₃ (fun hst => by cases hst) fun _ => same_consumed))

theorem consumeAll_rows {t : TenantId} {rid : RequestId} {token : Nat} {total n : Int}
    {cs : List ConsumeReservation} {db db' : Db}
    (h : consumeAll t rid token total cs db = .ok (n, db')) :
    RowsKept db db' ∧ ∀ c ∈ cs, ∃ r ∈ db.inventory.reservations, IsNamed t c r := by
  induction cs generalizing total db with
  | nil =>
    cases h
    exact ⟨.refl _, nofun⟩
  | cons c cs ih =>
    obtain ⟨⟨m, db₁⟩, h₁, h⟩ := bind_ok h
    dsimp only at h
    split at h
    · cases h
    · obtain ⟨hkept, hc⟩ := consumeOne_rows h₁
      obtain ⟨hkept', hcs⟩ := ih h
      refine ⟨hkept.trans hkept', fun c' hc' => ?_⟩
      rcases List.mem_cons.mp hc' with rfl | hc'
      · exact hc
      · obtain ⟨r', hr', hnamed⟩ := hcs c' hc'
        obtain ⟨r, hr, hsame⟩ := hkept.back r' hr'
        exact ⟨r, hr, hsame.named.mp hnamed⟩

theorem consume_rows {q : ConsumeBody} {db db' : Db} {o : ConsumeOutcome}
    (h : consume q db = .ok (o, db')) :
    RowsKept db db' ∧ ∀ c ∈ q.reservations, ∃ r ∈ db.inventory.reservations,
      IsNamed q.tenantId c r := by
  obtain ⟨⟨rid, token⟩, -, h⟩ := bind_ok h
  obtain ⟨-, -, h⟩ := bind_ok h
  obtain ⟨⟨n, db₁⟩, h₁, h⟩ := bind_ok h
  cases h
  exact consumeAll_rows h₁

/-- **What a consume consumes** is what the request says. -/
theorem consume_row {q : ConsumeBody} {db db' : Db} {o : ConsumeOutcome} (hu : UniqueRows db)
    (h : consume q db = .ok (o, db')) : ∀ c ∈ q.reservations,
      ∃ r ∈ db'.inventory.reservations, IsNamed q.tenantId c r ∧ r.status = .consumed := by
  intro c hc
  obtain ⟨hkept, hnamed⟩ := consume_rows h
  obtain ⟨r, hr, hn⟩ := hnamed c hc
  obtain ⟨r', hr', hsame⟩ := hkept.evolves r hr
  have hn' := hsame.named.mpr hn
  obtain ⟨x, hx, hkey, hst⟩ := (consume_spec hu h).all c hc
  obtain rfl : r' = x := ((consume_effects h).unique hu).eq_of_mem hr' hx (hn'.1.trans hkey.symm)
  exact ⟨r', hr', hn', hst⟩

theorem reapAll_rows {rs : List Reservation} {db db' : Db} {n : Nat}
    (h : reapAll rs db = .ok (n, db')) : RowsKept db db' := by
  induction rs generalizing db n with
  | nil =>
    cases h
    exact .refl _
  | cons r rs ih =>
    obtain ⟨db₁, h₁, h⟩ := bind_ok h
    obtain ⟨⟨m, db₂⟩, h₂, h⟩ := bind_ok h
    cases h
    refine RowsKept.trans ?_ (ih h₂)
    obtain ⟨db₃, h₃, h₁⟩ := bind_ok h₁
    refine (moveStock_rows h₃).trans ?_
    dsimp only at h₁
    split at h₁
    · rw [updateReservations_ok h₁]
      refine Rewrites.update .refl fun x hx => same_released ?_
      simp only [isExpired, Bool.and_eq_true, decide_eq_true_eq] at hx
      rw [hx.2.1]
      decide
    · cases h₁

/-! ## Stock rows -/

/-- What identifies a stock row. -/
def shelf (s : Stock) : Nat × TenantId × VariantId × LocationId :=
  (s.id, s.tenantId, s.variantId, s.locationId)

/-- Effects move quantities; the stock rows and the catalogue stay. -/
theorem Effect.shelves {K : TenantId × ReservationId → Prop} {db db' : Db}
    (h : Effect K db db') : db'.inventory.variants = db.inventory.variants ∧
      db'.inventory.stock.map shelf = db.inventory.stock.map shelf := by
  cases h with
  | refl | renew => exact ⟨rfl, rfl⟩
  | insert | reacquire | release | consume =>
    exact ⟨rfl, map_updateWhere_of_eq fun _ _ _ => rfl⟩

theorem Effects.shelves {K : TenantId × ReservationId → Prop} {db db' : Db}
    (h : Effects K db db') : db'.inventory.variants = db.inventory.variants ∧
      db'.inventory.stock.map shelf = db.inventory.stock.map shelf := by
  refine h.invariant (I := fun x => x.inventory.variants = db.inventory.variants ∧
    x.inventory.stock.map shelf = db.inventory.stock.map shelf) ⟨rfl, rfl⟩ ?_
  rintro a b ⟨hv, hs⟩ he
  obtain ⟨hv', hs'⟩ := he.shelves
  exact ⟨hv'.trans hv, hs'.trans hs⟩

end CommercePlayground.Inventory
