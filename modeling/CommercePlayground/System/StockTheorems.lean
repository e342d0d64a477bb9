/-
CommercePlayground.System.StockTheorems — what every step does to the stock.

`StockInv` ties the reservations to the orders: a reservation is one of a line of a stored
order, for the order's own request; once it is consumed the order's payment is captured;
and of a paid order every line is consumed. A step reserves, releases, consumes or reaps
reservations, or finalizes an order, or leaves all this alone (`StockMoved`).
-/
import CommercePlayground.System.FinalizationTheorems
import CommercePlayground.Inventory.RowTheorems
import CommercePlayground.Checkout.StockTheorems

namespace CommercePlayground.System

open Lib Checkout

/-! ## What the facts mean -/

/-- A fact of the stock holds. -/
def StockHolds (db : Db) : StockFact → Prop
  | .consumed tenantId id sku quantity => ∃ r ∈ db.inventory.reservations,
      Inventory.reservationKey r = (tenantId, id) ∧ r.sku = sku ∧ r.quantity = quantity ∧
        r.status = .consumed

/-- Everything that holds of the stock. -/
def stockFacts (db : Db) : Set StockFact := { f | StockHolds db f }

theorem stockFacts_congr {db db' : Db} (h : db'.inventory = db.inventory) :
    stockFacts db' = stockFacts db := by
  refine Set.ext fun f => ?_
  cases f with
  | consumed => simp only [stockFacts, Set.mem_ofPred_eq, StockHolds, h]

/-- A consumed reservation stays as it is. -/
theorem stockFacts_rows {db db' : Db} (h : Inventory.RowsKept db db') :
    stockFacts db ⊆ stockFacts db' := by
  rintro ⟨t, id, sku, quantity⟩ ⟨r, hr, hkey, hsku, hquantity, hst⟩
  obtain ⟨r', hr', hsame⟩ := h.evolves r hr
  obtain rfl := hsame.consumed hst
  exact ⟨r', hr', hkey, hsku, hquantity, hst⟩

/-! ## The invariant -/

/-- The reservation is the one of the line, for the request. -/
structure LineOf (order : PendingOrder) (requestId : RequestId) (line : OrderLine)
    (r : Reservation) : Prop where
  tenantId : r.tenantId = order.tenantId
  id : r.reservationId = .line order.id line.variantId
  sku : r.sku = line.sku
  quantity : r.quantity = line.quantity
  owner : r.ownerRequestId = some requestId

/-- The reservation is one of a known order, whose payment is captured before the
reservation is consumed. -/
def Backs (K : Set Fact) (r : Reservation) : Prop :=
  ∃ order requestId, ∃ line ∈ order.lines, Known K order requestId ∧
    LineOf order requestId line r ∧
    (r.status = .consumed → .captured (paymentOf order.tenantId requestId) ∈ K)

theorem Backs.mono {K K' : Set Fact} {r : Reservation} (h : Backs K r) (hK : K ⊆ K') :
    Backs K' r := by
  obtain ⟨order, requestId, line, hline, hknown, hof, hcaptured⟩ := h
  exact ⟨order, requestId, line, hline, hknown.mono hK, hof, fun hst => hK (hcaptured hst)⟩

/-- The reservation is taken from a stock row of its SKU. -/
structure Shelved (db : Db) (r : Reservation) : Prop where
  stock : ∃ s ∈ db.inventory.stock, Inventory.isStockOf r s = true
  variant : ∃ v ∈ db.inventory.variants,
    v.tenantId = r.tenantId ∧ v.id = r.variantId ∧ v.sku = r.sku

/-- Reservations and orders belong together. -/
structure StockInv (db : Db) : Prop where
  backed : ∀ r ∈ db.inventory.reservations, Backs (facts db) r
  shelved : ∀ r ∈ db.inventory.reservations, Shelved db r
  sold : ∀ o ∈ db.checkout.orders, o.status = .paid → ∀ session,
    Sold (stockFacts db) (pendingOrder o session)

/-! ## Steps -/

/-- What a step of the system does to the stock. -/
inductive StockMoved (db : Db) : Db → Prop where
  | idle {db' : Db} (hi : db'.inventory = db.inventory) (hu : Unfinalized db db') :
      StockMoved db db'
  | finalize {order : PendingOrder} {paymentId : PaymentId} {db' : Db}
      (hi : db'.inventory = db.inventory) (hstored : Fact.stored order ∈ facts db)
      (hsold : Sold (stockFacts db) order) (hf : Finalizes order paymentId db db') :
      StockMoved db db'
  | reserve {q : Inventory.ReserveQuery} {out : Option Inventory.ReserveOutcome} {db' : Db}
      (hneeds : reserveNeeds q (facts db)) (hr : Inventory.reserve q db = .ok (out, db')) :
      StockMoved db db'
  | release {q : Inventory.ReleaseBody} {out : Option Inventory.ReleaseOutcome} {db' : Db}
      (hr : Inventory.release q db = .ok (out, db')) : StockMoved db db'
  | consume {q : Inventory.ConsumeBody} {out : Inventory.ConsumeOutcome} {db' : Db}
      (hneeds : consumeNeeds q (facts db)) (hr : Inventory.consume q db = .ok (out, db')) :
      StockMoved db db'
  | reap {visible : Reservation → Bool} {n : Nat} {db' : Db}
      (hr : Inventory.reapExpiredReservations visible db = .ok (n, db')) : StockMoved db db'

theorem StockMoved.refl (db : Db) : StockMoved db db := .idle rfl (.refl db)

section Steps

variable {db db' : Db} {K : TenantId × ReservationId → Prop}

theorem Shelved.effects (h : Inventory.Effects K db db') {r r' : Reservation}
    (hs : Shelved db r) (hsame : Inventory.SameReservation r r') : Shelved db' r' := by
  obtain ⟨hvariants, hshelves⟩ := h.shelves
  have ht : r'.tenantId = r.tenantId := congrArg Prod.fst hsame.key
  obtain ⟨⟨s, hmem, hst⟩, v, hv, hvt, hvid, hvsku⟩ := hs
  refine ⟨?_, v, hvariants ▸ hv, hvt.trans ht.symm, hvid.trans hsame.variantId.symm,
    hvsku.trans hsame.sku.symm⟩
  have hshelf := List.mem_map_of_mem (f := Inventory.shelf) hmem
  rw [← hshelves] at hshelf
  obtain ⟨s', hmem', heq⟩ := List.mem_map.mp hshelf
  simp only [Inventory.shelf, Prod.mk.injEq] at heq
  refine ⟨s', hmem', ?_⟩
  simp only [Inventory.isStockOf, decide_eq_true_eq] at hst ⊢
  rw [heq.2.1, heq.2.2.1, heq.2.2.2, ht, hsame.variantId, hsame.locationId]
  exact hst

/-- A rewritten reservation stays one of its line; if it becomes consumed, then because
`K` names it. -/
theorem Backs.effects (h : Inventory.Effects K db db') (hu : Inventory.UniqueRows db)
    {r r' : Reservation} (hr : r ∈ db.inventory.reservations)
    (hr' : r' ∈ db'.inventory.reservations) (hsame : Inventory.SameReservation r r')
    (hK : K (Inventory.reservationKey r) → ∀ order requestId line,
      Known (facts db) order requestId → LineOf order requestId line r →
        .captured (paymentOf order.tenantId requestId) ∈ facts db)
    (hb : Backs (facts db) r) : Backs (facts db) r' := by
  obtain ⟨order, requestId, line, hline, hknown, hof, hcaptured⟩ := hb
  refine ⟨order, requestId, line, hline, hknown, ?_, fun hst => ?_⟩
  · exact ⟨(congrArg Prod.fst hsame.key).trans hof.tenantId,
      (congrArg Prod.snd hsame.key).trans hof.id, hsame.sku.trans hof.sku,
      hsame.quantity.trans hof.quantity, hsame.ownerRequestId.trans hof.owner⟩
  · by_cases hk : K (Inventory.reservationKey r)
    · exact hK hk order requestId line hknown hof
    · -- it was consumed before
      obtain ⟨x, hx, hkey, hx'⟩ := (h.consumed_iff hu hk).mp ⟨r', hr', hsame.key, hst⟩
      obtain rfl : x = r := hu.eq_of_mem hx hr hkey
      exact hcaptured hx'

/-- The transactions of inventory that insert nothing. -/
theorem StockInv.rewritten (h : StockInv db) (hu : Inventory.UniqueRows db)
    (hrows : Inventory.RowsKept db db') (he : Inventory.Effects K db db')
    (hK : ∀ r ∈ db.inventory.reservations, K (Inventory.reservationKey r) →
      ∀ order requestId line, Known (facts db) order requestId → LineOf order requestId line r →
        .captured (paymentOf order.tenantId requestId) ∈ facts db) :
    StockInv db' ∧ stockFacts db ⊆ stockFacts db' := by
  obtain ⟨hck, hp, -, hnext⟩ := he.frame
  have hstock := stockFacts_rows hrows
  refine ⟨⟨fun r' hr' => ?_, fun r' hr' => ?_, ?_⟩, hstock⟩
  · obtain ⟨r, hr, hsame⟩ := hrows.back r' hr'
    have hb := Backs.effects he hu hr hr' hsame (hK r hr) (h.backed r hr)
    exact hb.mono (facts_congr hck (by rw [hp]) hnext)
  · obtain ⟨r, hr, hsame⟩ := hrows.back r' hr'
    exact (h.shelved r hr).effects he hsame
  · rw [hck]
    exact fun o ho hpaid session => (h.sold o ho hpaid session).mono hstock

theorem StockInv.reserve (h : StockInv db) (hu : Inventory.UniqueRows db)
    {q : Inventory.ReserveQuery} {out : Option Inventory.ReserveOutcome}
    (hneeds : reserveNeeds q (facts db)) (hr : Inventory.reserve q db = .ok (out, db')) :
    StockInv db' ∧ stockFacts db ⊆ stockFacts db' := by
  have he : Inventory.Effects (fun _ => False) db db' := (Inventory.reserve_effect hr).toEffects
  rcases Inventory.reserve_rows hr with hrows | ⟨s, hs, hcand, hins⟩
  · exact h.rewritten hu hrows he fun _ _ hk => hk.elim
  · obtain ⟨hck, hp, -, hnext⟩ := he.frame
    have hfacts : facts db ⊆ facts db' := facts_congr hck (by rw [hp]) hnext
    have hstock : stockFacts db ⊆ stockFacts db' := by
      rintro ⟨t, id, sku, quantity⟩ ⟨r, hmem, hrest⟩
      exact ⟨r, hins ▸ List.mem_append_left _ hmem, hrest⟩
    refine ⟨⟨?_, ?_, ?_⟩, hstock⟩
    · rw [hins]
      refine forall_append_singleton (fun r hr => (h.backed r hr).mono hfacts) ?_
      obtain ⟨order, requestId, line, hline, hknown, ht, hid, hsku, hquantity, howner⟩ := hneeds
      exact ⟨order, requestId, line, hline, hknown.mono hfacts,
        ⟨ht, hid, hsku, by rw [← hquantity]; rfl, howner⟩, nofun⟩
    · rw [hins]
      refine forall_append_singleton
        (fun r hr => (h.shelved r hr).effects he (.refl r)) ?_
      have hnew : Shelved db (Inventory.newReservation db q s) := by
        simp only [Inventory.isCandidate, Bool.and_eq_true, List.any_eq_true,
          decide_eq_true_eq] at hcand
        obtain ⟨⟨⟨ht, v, hv, hvariant, -⟩, -⟩, -⟩ := hcand
        refine ⟨⟨s, hs, ?_⟩, v, hv, hvariant.1.trans ht, hvariant.2.1, hvariant.2.2⟩
        simp [Inventory.isStockOf, Inventory.newReservation, ht]
      exact hnew.effects he (.refl _)
    · rw [hck]
      exact fun o ho hpaid session => (h.sold o ho hpaid session).mono hstock

/-- A consume names reservations of an order whose payment is captured. -/
theorem DbInv.consume_captured (hdb : DbInv db) {q : Inventory.ConsumeBody}
    (hneeds : consumeNeeds q (facts db)) {r : Reservation}
    (hk : Inventory.consumes q (Inventory.reservationKey r)) {order : PendingOrder}
    {requestId : RequestId} {line : OrderLine} (hknown : Known (facts db) order requestId)
    (hof : LineOf order requestId line r) :
    .captured (paymentOf order.tenantId requestId) ∈ facts db := by
  obtain ⟨order', requestId', hknown', hcaptured, ht, hlines⟩ := hneeds
  obtain ⟨hkt, c, hc, hkid⟩ := hk
  obtain ⟨v, hv⟩ := hlines c hc
  have htenant : order.tenantId = order'.tenantId := hof.tenantId.symm.trans (hkt.trans ht)
  have hid : order.id = order'.id := by
    have hline := hof.id.symm.trans (hkid.symm.trans hv)
    simp only [ReservationId.line.injEq] at hline
    exact hline.1
  have hreq := hknown.2
  rw [htenant] at hreq
  rw [htenant, (hdb.order_eq hreq hknown'.2 (.inl hid)).2]
  exact hcaptured

theorem Sold.stored {L : Set StockFact} {order : PendingOrder} (h : Sold L order) {o : Order}
    {session session' : SessionId} (heq : pendingOrder o session = order) {st : OrderStatus} :
    Sold L (pendingOrder { o with status := st } session') := by
  subst heq
  exact ⟨h.distinct, h.consumed⟩

/-- **A step keeps reservations and orders together**, and what is consumed stays
consumed. -/
theorem StockInv.moved (h : StockInv db) (hdb : DbInv db) (hfacts : facts db ⊆ facts db')
    (hm : StockMoved db db') : StockInv db' ∧ stockFacts db ⊆ stockFacts db' := by
  have hsame : db'.inventory = db.inventory →
      (∀ o ∈ db'.checkout.orders, o.status = .paid → ∀ session,
        Sold (stockFacts db) (pendingOrder o session)) →
      StockInv db' ∧ stockFacts db ⊆ stockFacts db' := by
    intro hi hsold
    have hstock := stockFacts_congr hi
    refine ⟨⟨?_, ?_, ?_⟩, hstock.ge⟩
    · rw [hi]
      exact fun r hr => (h.backed r hr).mono hfacts
    · rw [hi]
      intro r hr
      obtain ⟨hs, hv⟩ := h.shelved r hr
      exact ⟨by rw [hi]; exact hs, by rw [hi]; exact hv⟩
    · rw [hstock]
      exact hsold
  cases hm with
  | idle hi hu => exact hsame hi fun o ho hpaid => h.sold o (hu.paid o ho hpaid) hpaid
  | @finalize order paymentId db' hi hstored hsold hf =>
    refine hsame hi fun o ho hpaid session => ?_
    rw [hf.orders] at ho
    obtain ⟨x, hx, heq⟩ := mem_updateWhere.mp ho
    split at heq
    · rename_i hsel
      obtain ⟨y, hy, hyo⟩ := hstored
      simp only [isPendingOrder, isOrder, Bool.and_eq_true, decide_eq_true_eq] at hsel
      have hyid : y.id = order.id := by
        rw [← hyo]
        rfl
      obtain rfl : x = y := hdb.orders.eq_of_mem hx hy (hsel.1.2.trans hyid.symm)
      rw [heq]
      exact Sold.stored hsold hyo
    · rw [heq] at hpaid ⊢
      exact h.sold x hx hpaid session
  | reserve hneeds hr => exact h.reserve hdb.reservations hneeds hr
  | release hr =>
    exact h.rewritten (K := fun _ => False) hdb.reservations (Inventory.release_rows hr)
      (Inventory.release_effects hr) fun _ _ hk => hk.elim
  | consume hneeds hr =>
    exact h.rewritten hdb.reservations (Inventory.consume_rows hr).1
      (Inventory.consume_effects hr)
      fun r _ hk _ _ _ hknown hof => hdb.consume_captured hneeds hk hknown hof
  | reap hr =>
    exact h.rewritten (K := fun _ => False) hdb.reservations (Inventory.reapAll_rows hr)
      (Inventory.reapExpiredReservations_effects hdb.reservations hr) fun _ _ hk => hk.elim

/-- A step that writes the inventory tables does so by effects. -/
theorem StockMoved.effects (hm : StockMoved db db') (hu : Inventory.UniqueRows db) :
    db'.inventory = db.inventory ∨ ∃ K, Inventory.Effects K db db' := by
  cases hm with
  | idle hi => exact .inl hi
  | finalize hi => exact .inl hi
  | reserve hneeds hr => exact .inr ⟨fun _ => False, (Inventory.reserve_effect hr).toEffects⟩
  | release hr => exact .inr ⟨fun _ => False, Inventory.release_effects hr⟩
  | consume hneeds hr => exact .inr ⟨_, Inventory.consume_effects hr⟩
  | reap hr => exact .inr ⟨fun _ => False, Inventory.reapExpiredReservations_effects hu hr⟩

/-- No reservation is deleted, and a consumed one is not written. -/
theorem StockMoved.rows (hm : StockMoved db db') :
    Evolves Inventory.SameReservation db.inventory.reservations db'.inventory.reservations := by
  cases hm with
  | idle hi =>
    rw [hi]
    exact .refl .refl _
  | finalize hi =>
    rw [hi]
    exact .refl .refl _
  | reserve hneeds hr =>
    rcases Inventory.reserve_rows hr with hrows | ⟨s, -, -, hins⟩
    · exact hrows.evolves
    · rw [hins]
      exact .insert .refl _ _
  | release hr => exact (Inventory.release_rows hr).evolves
  | consume hneeds hr => exact (Inventory.consume_rows hr).1.evolves
  | reap hr => exact (Inventory.reapAll_rows hr).evolves

end Steps

end CommercePlayground.System
