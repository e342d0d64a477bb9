/-
CommercePlayground.Fulfillment.OrderTheorems — orders, shipments and effects
over whole runs, and that a cancellation is final.

`Moved` says what one step of the system does to the tables. The invariant
`StoreInv` follows from it: an effect that still waits belongs to an order in
the one status its operation leaves it in, at the version the effect was queued
under. A cancelled order therefore has no fulfillment effect that waits, and
no statement of the service touches it again.
-/
import CommercePlayground.Fulfillment.ClaimTheorems
import CommercePlayground.Fulfillment.Consumer

namespace CommercePlayground.Fulfillment

open Lib

/-! ## Keys -/

def orderKey (o : OrderRow) : TenantId × OrderId := (o.tenantId, o.id)

def shipmentKey (sh : Shipment) : TenantId × OrderId × Nat :=
  (sh.tenantId, sh.orderId, sh.shipmentNumber)

def effectKey (e : EffectRow) : TenantId × EventKey := (e.tenantId, e.effectKey)

/-- What an effect is for: an operation on an order. -/
def EffectRow.purpose (e : EffectRow) : TenantId × OrderId × Operation :=
  (e.tenantId, e.orderId, e.operation)

def CommerceEvent.purpose (e : CommerceEvent) : TenantId × OrderId × Operation :=
  (e.tenantId, e.orderId, e.operation)

theorem isOrder_iff {t : TenantId} {i : OrderId} {o : OrderRow} :
    isOrder t i o = true ↔ orderKey o = (t, i) := by
  simp [isOrder, orderKey]

theorem isShipment_iff {t : TenantId} {i : OrderId} {n : Nat} {sh : Shipment} :
    isShipment t i n sh = true ↔ shipmentKey sh = (t, i, n) := by
  simp [isShipment, shipmentKey]

theorem isEffect_iff {t : TenantId} {k : EventKey} {e : EffectRow} :
    isEffect t k e = true ↔ effectKey e = (t, k) := by
  simp [isEffect, effectKey]

theorem loadOrder_some {s : Store} {t : TenantId} {i : OrderId} {o : OrderRow}
    (h : loadOrder s t i = some o) : o ∈ s.orders ∧ orderKey o = (t, i) := by
  obtain ⟨ho, hk⟩ := find?_some_spec h
  exact ⟨ho, isOrder_iff.mp hk⟩

theorem isOpenOrder_eq (status : OrderStatus) : isOpenOrder status = !isTerminalOrder status := by
  cases status <;> rfl

theorem operation_eq (event : CommerceEvent) :
    event.operation = .cancellation ∧ event.isCancellation = true ∨
      event.operation = .fulfillment ∧ event.isCancellation = false := by
  unfold CommerceEvent.operation
  cases event.isCancellation
  · exact .inr ⟨rfl, rfl⟩
  · exact .inl ⟨rfl, rfl⟩

/-! ## Queueing -/

section Queueing

variable {event downstream : CommerceEvent} {key : EventKey} {kind : EffectKind}
  {payload : CommerceEvent} {status : Option ShipmentStatus} {s : Store}

/-- Queueing writes effects only. -/
theorem queueEffect_frame : queueEffect event key kind payload status s =
    { s with effects := (queueEffect event key kind payload status s).effects } := by
  unfold queueEffect
  split <;> rfl

theorem queueEffect_mem {e : EffectRow} (he : e ∈ s.effects) :
    e ∈ (queueEffect event key kind payload status s).effects := by
  unfold queueEffect insertMissing
  split
  · exact he
  · simp only
    split
    · exact he
    · exact List.mem_append_left _ he

theorem queueEffect_new {e : EffectRow}
    (he : e ∈ (queueEffect event key kind payload status s).effects) :
    e ∈ s.effects ∨ ∃ o ∈ s.orders, orderKey o = (event.tenantId, event.orderId) ∧
      e = newEffect event key kind payload status o := by
  unfold queueEffect insertMissing at he
  split at he
  · exact .inl he
  · rename_i o ho
    simp only at he
    split at he
    · exact .inl he
    · rcases List.mem_append.mp he with he | he
      · exact .inl he
      · obtain ⟨hmem, hk⟩ := loadOrder_some ho
        exact .inr ⟨o, hmem, hk, List.mem_singleton.mp he⟩

theorem queueEffect_keys (h : KeyUnique effectKey s.effects) :
    KeyUnique effectKey (queueEffect event key kind payload status s).effects := by
  unfold queueEffect insertMissing
  split
  · exact h
  · simp only
    split
    · exact h
    · rename_i hnone
      refine h.append_singleton fun e he hk => ?_
      exact hnone (List.any_eq_true.mpr ⟨e, he, isEffect_iff.mpr hk⟩)

/-- Afterwards the key is there. -/
theorem queueEffect_has {o : OrderRow} (ho : o ∈ s.orders)
    (hk : orderKey o = (event.tenantId, event.orderId)) :
    ∃ e ∈ (queueEffect event key kind payload status s).effects,
      effectKey e = (event.tenantId, key) := by
  unfold queueEffect insertMissing
  split
  · rename_i hnone
    have hno := List.find?_eq_none.mp hnone o ho
    exact absurd (isOrder_iff.mpr hk) (by simpa using hno)
  · simp only
    split
    · rename_i hany
      obtain ⟨e, he, hek⟩ := List.any_eq_true.mp hany
      exact ⟨e, he, isEffect_iff.mp hek⟩
    · exact ⟨_, List.mem_append_right _ (List.mem_singleton_self _), rfl⟩

/-- A key that is there is not queued again. -/
theorem queueEffect_present {e : EffectRow} (he : e ∈ s.effects)
    (hk : effectKey e = (event.tenantId, key)) :
    queueEffect event key kind payload status s = s := by
  unfold queueEffect insertMissing
  split
  · rfl
  · rw [if_pos (List.any_eq_true.mpr ⟨e, he, isEffect_iff.mpr hk⟩)]

/-- The two effects of an operation. -/
theorem queueEffects_frame {st : ShipmentStatus} : queueEffects event downstream st s =
    { s with effects := (queueEffects event downstream st s).effects } := by
  unfold queueEffects
  rw [queueEffect_frame, queueEffect_frame]

theorem queueEffects_mem {st : ShipmentStatus} {e : EffectRow} (he : e ∈ s.effects) :
    e ∈ (queueEffects event downstream st s).effects :=
  queueEffect_mem (queueEffect_mem he)

/-- A new effect waits under the version of the order, for the operation of
the event. -/
def IsNew (event : CommerceEvent) (s : Store) (e : EffectRow) : Prop :=
  ∃ o ∈ s.orders, orderKey o = (event.tenantId, event.orderId) ∧
    ∃ key kind payload status, e = newEffect event key kind payload status o

theorem queueEffects_new {st : ShipmentStatus} {e : EffectRow}
    (he : e ∈ (queueEffects event downstream st s).effects) :
    e ∈ s.effects ∨ IsNew event s e := by
  rcases queueEffect_new he with he | ⟨o, ho, hk, rfl⟩
  · rcases queueEffect_new he with he | ⟨o, ho, hk, rfl⟩
    · exact .inl he
    · exact .inr ⟨o, ho, hk, _, _, _, _, rfl⟩
  · rw [queueEffect_frame] at ho
    exact .inr ⟨o, ho, hk, _, _, _, _, rfl⟩

theorem queueEffects_keys {st : ShipmentStatus} (h : KeyUnique effectKey s.effects) :
    KeyUnique effectKey (queueEffects event downstream st s).effects :=
  queueEffect_keys (queueEffect_keys h)

variable (downstream) in
theorem queueEffects_has (st : ShipmentStatus) {o : OrderRow} (ho : o ∈ s.orders)
    (hk : orderKey o = (event.tenantId, event.orderId)) :
    (∃ e ∈ (queueEffects event downstream st s).effects,
      effectKey e = (event.tenantId, downstream.eventKey)) ∧
    ∃ e ∈ (queueEffects event downstream st s).effects,
      effectKey e = (event.tenantId, event.notificationEffectKey st) := by
  have hfirst : ∃ e ∈ (queueEffect event downstream.eventKey .event downstream none s).effects,
      effectKey e = (event.tenantId, downstream.eventKey) := queueEffect_has ho hk
  obtain ⟨e, he, hek⟩ := hfirst
  refine ⟨⟨e, queueEffect_mem he, hek⟩, queueEffect_has (o := o) ?_ hk⟩
  rw [queueEffect_frame]
  exact ho

theorem queueEffects_present {st : ShipmentStatus} {e f : EffectRow} (he : e ∈ s.effects)
    (hek : effectKey e = (event.tenantId, downstream.eventKey)) (hf : f ∈ s.effects)
    (hfk : effectKey f = (event.tenantId, event.notificationEffectKey st)) :
    queueEffects event downstream st s = s := by
  unfold queueEffects
  rw [queueEffect_present he hek, queueEffect_present hf hfk]

end Queueing

/-! ## Processing -/

/-- The shipments after the upsert of an order's first one. -/
inductive Upserted (s : Store) (o : OrderRow) : List Shipment → Prop where
  | touch {sh : Shipment} (hsh : sh ∈ s.shipments) (hk : shipmentKey sh = (o.tenantId, o.id, 1)) :
      Upserted s o (updateWhere (isShipment o.tenantId o.id 1)
        (fun sh => { sh with updatedAt := s.now }) s.shipments)
  | insert {location : LocationId}
      (hnew : ∀ sh ∈ s.shipments, shipmentKey sh ≠ (o.tenantId, o.id, 1)) :
      Upserted s o (s.shipments ++ [newShipment s o location])

/-- What `processOrderInTransaction` can commit. -/
inductive Processing (event : CommerceEvent) (s : Store) : Store → Prop where
  | terminal {o : OrderRow} (ho : o ∈ s.orders)
      (hk : orderKey o = (event.tenantId, event.orderId))
      (hst : isTerminalOrder o.status = true) : Processing event s s
  | gone {sh : Shipment} (hop : event.operation = .fulfillment) (hsh : sh ∈ s.shipments)
      (hk : shipmentKey sh = (event.tenantId, event.orderId, 1))
      (hst : isTerminalShipment sh.status = true) : Processing event s s
  | cancel {o : OrderRow} (hop : event.operation = .cancellation) (ho : o ∈ s.orders)
      (hk : orderKey o = (event.tenantId, event.orderId))
      (hst : isTerminalOrder o.status = false) :
      Processing event s (queueEffects event event.orderCancelled .cancelled (cancelOrder o s))
  | fulfill {o : OrderRow} {sh : Shipment} {shipments : List Shipment}
      (hop : event.operation = .fulfillment) (ho : o ∈ s.orders)
      (hk : orderKey o = (event.tenantId, event.orderId))
      (hst : isTerminalOrder o.status = false)
      (hidle : ∀ sh ∈ s.shipments, shipmentKey sh = (o.tenantId, o.id, 1) →
        isTerminalShipment sh.status = false)
      (hships : Upserted s o shipments) (hsh : sh ∈ shipments)
      (hshk : shipmentKey sh = (o.tenantId, o.id, 1)) :
      Processing event s (queueEffects event event.shipmentCreated sh.status
        { s with
          orders := updateWhere (isFulfillable s o) (startProcessing s.now) s.orders
          shipments := shipments })

theorem upsertShipment_ok {o : OrderRow} {s u : Store} (h : upsertShipment o s = .ok u) :
    ∃ t, u = { s with shipments := t } ∧ Upserted s o t := by
  unfold upsertShipment at h
  split at h
  · cases h
  · split at h
    · rename_i hany
      cases h
      obtain ⟨sh, hsh, hk⟩ := List.any_eq_true.mp hany
      exact ⟨_, rfl, .touch hsh (isShipment_iff.mp hk)⟩
    · rename_i hnone
      split at h
      · cases h
      · cases h
        refine ⟨_, rfl, .insert fun sh hsh hk => hnone ?_⟩
        exact List.any_eq_true.mpr ⟨sh, hsh, isShipment_iff.mpr hk⟩

/-- The upsert keeps the status of a shipment that was there; a new one has
its label. -/
theorem Upserted.status {s : Store} {o : OrderRow} {t : List Shipment} (h : Upserted s o t)
    {sh : Shipment} (hsh : sh ∈ t) :
    (∃ sh' ∈ s.shipments, shipmentKey sh' = shipmentKey sh ∧ sh'.status = sh.status) ∨
      (∀ sh' ∈ s.shipments, shipmentKey sh' ≠ shipmentKey sh) ∧ sh.status = .labelCreated := by
  cases h with
  | touch =>
    obtain ⟨sh', hsh', rfl⟩ := mem_updateWhere.mp hsh
    refine .inl ⟨sh', hsh', ?_⟩
    split <;> exact ⟨rfl, rfl⟩
  | insert hnew =>
    rcases List.mem_append.mp hsh with hsh | hsh
    · exact .inl ⟨sh, hsh, rfl, rfl⟩
    · rw [List.mem_singleton.mp hsh]
      exact .inr ⟨hnew, rfl⟩

theorem fulfillOrder_ok {event : CommerceEvent} {o : OrderRow} {s u : Store}
    (h : fulfillOrder event o s = .ok ((), u))
    (hidle : ∀ sh ∈ s.shipments, shipmentKey sh = (o.tenantId, o.id, 1) →
      isTerminalShipment sh.status = false) :
    ∃ t sh, Upserted s o t ∧ sh ∈ t ∧ shipmentKey sh = (o.tenantId, o.id, 1) ∧
      u = queueEffects event event.shipmentCreated sh.status { s with shipments := t } := by
  unfold fulfillOrder at h
  split at h
  · cases h
  · rename_i s' hups
    obtain ⟨t, rfl, ht⟩ := upsertShipment_ok hups
    split at h
    · cases h
    · rename_i sh hfind
      obtain ⟨hsh, hk⟩ := find?_some_spec hfind
      rw [isShipment_iff] at hk
      have hopen : isTerminalShipment sh.status = false := by
        rcases ht.status hsh with ⟨sh', hsh', hk', hst⟩ | ⟨-, hst⟩
        · rw [← hst]
          exact hidle sh' hsh' (hk'.trans hk)
        · rw [hst]
          rfl
      rw [hopen] at h
      cases h
      exact ⟨t, sh, ht, hsh, hk, rfl⟩

/-- **Processing.** -/
theorem processOrderInTransaction_ok {event : CommerceEvent} {s u : Store} {r : Unit}
    (hu : KeyUnique orderKey s.orders)
    (h : processOrderInTransaction event s = .ok (r, u)) : Processing event s u := by
  unfold processOrderInTransaction at h
  split at h
  · cases h
  · rename_i o hload
    obtain ⟨ho, hk⟩ := loadOrder_some hload
    split at h
    · cases h
    · split at h
      · cases h
      · have hcase := operation_eq event
        split at h
        · rename_i hc
          have hop : event.operation = .cancellation := by simpa [hc] using hcase
          split at h
          · rename_i hst
            cases h
            exact .terminal ho hk hst
          · rename_i hst
            cases h
            exact .cancel hop ho hk (by simpa using hst)
        · rename_i hc
          have hop : event.operation = .fulfillment := by simpa [hc] using hcase
          split at h
          · rename_i hst
            cases h
            exact .terminal ho hk hst
          · rename_i hst
            have hst : isTerminalOrder o.status = false := by simpa using hst
            have hids : o.tenantId = event.tenantId ∧ o.id = event.orderId := by
              simpa [orderKey] using hk
            split at h
            · rename_i hone
              obtain ⟨o', -, hsel⟩ :=
                exists_of_affected_ne_zero (ne_of_eq_of_ne hone Nat.one_ne_zero)
              have hidle : ∀ sh ∈ s.shipments, shipmentKey sh = (o.tenantId, o.id, 1) →
                  isTerminalShipment sh.status = false := by
                intro sh hsh hshk
                simp only [isFulfillable, Bool.and_eq_true, Bool.not_eq_true',
                  List.any_eq_false] at hsel
                have hno := hsel.2 sh hsh
                rw [isShipment_iff.mpr hshk] at hno
                simpa using hno
              obtain ⟨t, sh, hups, hsh, hshk, rfl⟩ := fulfillOrder_ok h hidle
              refine .fulfill hop ho hk hst hidle ?_ hsh hshk
              cases hups with
              | touch hmem hkey => exact .touch hmem hkey
              | insert hnew => exact .insert hnew
            · rename_i hone
              cases h
              -- the order is there and open, so a shipment of it has gone out
              by_contra hno
              refine hone (hu.affected_eq_one ho ?_ ?_)
              · simp only [isFulfillable, Bool.and_eq_true, Bool.not_eq_true', isOrder_iff,
                  isOpenOrder_eq, hst, orderKey, List.any_eq_false]
                refine ⟨⟨trivial, trivial⟩, fun sh hsh => ?_⟩
                rintro ⟨hshk, hterm⟩
                rw [isShipment_iff, hids.1, hids.2] at hshk
                exact hno (.gone hop hsh hshk hterm)
              · intro o' _ hsel
                simp only [isFulfillable, Bool.and_eq_true] at hsel
                exact isOrder_iff.mp hsel.1.1

/-! ## What a step does to the tables -/

/-- The tables after one step of the system. -/
inductive Moved (s : Store) : Store → Prop where
  | claims {t : List ProcessedEvent} {next : Nat} (hw : ClaimWrite s t next) :
      Moved s { s with claims := t, nextToken := next }
  | process {event : CommerceEvent} {u : Store} (h : Processing event s u) : Moved s u
  | claimEffects (event : CommerceEvent) (leaseToken : Nat) : Moved s
      { s with
        nextToken := s.nextToken + 1
        effects := updateWhere (isClaimable s event leaseToken) (claimedEffect s) s.effects }
  | publish {effect : EffectRow} {key : EventKey} {leaseToken : Nat} {u : Store}
      (h : publishEffect effect key leaseToken s = .ok ((), u)) : Moved s u
  | release {effect : EffectRow} {u : Store} (h : releaseEffect effect s = .ok ((), u)) :
      Moved s u
  | environment {e : Environment} {u : Store} (h : e.step s = some u) : Moved s u

theorem Moved.refl (s : Store) : Moved s s := .claims (.same le_rfl)

/-! ## The invariant of the tables -/

/-- The status an operation leaves its order in. -/
def Operation.orderStatus : Operation → OrderStatus
  | .fulfillment => .processing
  | .cancellation => .cancelled

/-- An effect that has not gone out and was not cancelled. -/
def EffectRow.Waits (e : EffectRow) : Prop :=
  e.status = .queued ∨ e.status = .publishing ∨ e.status = .failed

/-- The order an effect was queued for is still as the effect's operation left
it. -/
def EffectRow.Fenced (orders : List OrderRow) (e : EffectRow) : Prop :=
  ∃ o ∈ orders, orderKey o = (e.tenantId, e.orderId) ∧ o.updatedAt = e.aggregateVersion ∧
    o.status = e.operation.orderStatus

structure EffectOk (orders : List OrderRow) (next : Nat) (e : EffectRow) : Prop where
  token : ∀ n, e.claimToken = some n → n < next
  claimed : e.status = .publishing → e.claimUntil.isSome = true
  failed : e.status = .failed → maxClaimAttempts ≤ e.attempts
  fenced : e.Waits → e.Fenced orders

/-- The tables of every reachable state. -/
structure StoreInv (s : Store) : Prop where
  claims : ClaimInv s.claims s.nextToken
  orders : KeyUnique orderKey s.orders
  shipments : KeyUnique shipmentKey s.shipments
  effects : KeyUnique effectKey s.effects
  rows : ∀ e ∈ s.effects, EffectOk s.orders s.nextToken e

theorem EffectOk.mono {orders orders' : List OrderRow} {n m : Nat} {e : EffectRow}
    (h : EffectOk orders n e) (hn : n ≤ m) (hf : e.Fenced orders → e.Fenced orders') :
    EffectOk orders' m e where
  token k hk := Nat.lt_of_lt_of_le (h.token k hk) hn
  claimed := h.claimed
  failed := h.failed
  fenced hw := hf (h.fenced hw)

theorem StoreInv.initial {st : State} (h : Initial st) : StoreInv st.store where
  claims := by
    rw [h.claims]
    refine ⟨KeyUnique.nil _, fun r hr => ?_⟩
    cases hr
  orders := h.orders
  shipments := h.shipments
  effects := by
    rw [h.effects]
    exact KeyUnique.nil _
  rows := by
    rw [h.effects]
    intro e he
    cases he

/-- The row of a fence is in one of two statuses. -/
theorem EffectRow.Fenced.imp {orders orders' : List OrderRow} {e : EffectRow}
    (h : e.Fenced orders)
    (hkeep : ∀ o ∈ orders, o.status = .processing ∨ o.status = .cancelled → o ∈ orders') :
    e.Fenced orders' := by
  obtain ⟨o, ho, hk, hv, hst⟩ := h
  refine ⟨o, hkeep o ho ?_, hk, hv, hst⟩
  rw [hst]
  cases e.operation
  · exact .inl rfl
  · exact .inr rfl

/-- An update of some effects that keeps each of them in order. -/
theorem StoreInv.updateEffects {s : Store} {sel : EffectRow → Bool} {f : EffectRow → EffectRow}
    {next : Nat} (h : StoreInv s) (hn : s.nextToken ≤ next)
    (hkey : ∀ e, effectKey (f e) = effectKey e)
    (hf : ∀ e ∈ s.effects, sel e = true → EffectOk s.orders next (f e)) :
    StoreInv { s with nextToken := next, effects := updateWhere sel f s.effects } where
  claims := h.claims.write (.same hn)
  orders := h.orders
  shipments := h.shipments
  effects := h.effects.updateWhere fun e _ _ => hkey e
  rows := by
    intro e' he'
    obtain ⟨e, he, rfl⟩ := mem_updateWhere.mp he'
    split
    · rename_i hsel
      exact hf e he hsel
    · exact (h.rows e he).mono hn id

theorem isClaimable_waits {s : Store} {event : CommerceEvent} {token : Nat} {e : EffectRow}
    (h : isClaimable s event token e = true) : e.Waits := by
  simp only [isClaimable, Bool.and_eq_true, Bool.or_eq_true, decide_eq_true_eq] at h
  rcases h.1.1.1.2 with hst | hst
  · exact .inl hst
  · exact .inr (.inl hst.1)

theorem StoreInv.claimEffects {s : Store} (h : StoreInv s) (event : CommerceEvent)
    (token : Nat) : StoreInv
      { s with
        nextToken := s.nextToken + 1
        effects := updateWhere (isClaimable s event token) (claimedEffect s) s.effects } := by
  refine h.updateEffects (f := claimedEffect s) (Nat.le_succ _) (fun _ => rfl)
    fun e he hsel => ⟨?_, fun _ => rfl, nofun, fun _ => ?_⟩
  · rintro n ⟨⟩
    exact Nat.lt_succ_self _
  · exact (h.rows e he).fenced (isClaimable_waits hsel)

/-- The row a published effect had. -/
theorem publishEffect_ok {s u : Store} {effect : EffectRow} {key : EventKey} {token : Nat}
    {r : Unit} (h : publishEffect effect key token s = .ok (r, u)) :
    affected (isDispatchable s effect key token) s.effects = 1 ∧
      u = { s with
        effects := updateWhere (isDispatchable s effect key token)
          (fun e => { e with status := .published, claimToken := none, claimUntil := none })
          s.effects } := by
  unfold publishEffect at h
  simp only at h
  split at h
  · rename_i hone
    cases h
    exact ⟨hone, rfl⟩
  · cases h

theorem StoreInv.publishEffect {s u : Store} {effect : EffectRow} {key : EventKey} {token : Nat}
    (h : StoreInv s) (hp : publishEffect effect key token s = .ok ((), u)) : StoreInv u := by
  obtain ⟨-, rfl⟩ := publishEffect_ok hp
  refine h.updateEffects le_rfl (fun _ => rfl) fun e he hsel => ⟨nofun, nofun, nofun, ?_⟩
  rintro (hst | hst | hst) <;> cases hst

theorem StoreInv.releaseEffect {s u : Store} {effect : EffectRow} (h : StoreInv s)
    (hr : releaseEffect effect s = .ok ((), u)) : StoreInv u := by
  cases hr
  refine h.updateEffects le_rfl (fun _ => rfl) fun e he hsel => ⟨nofun, ?_, ?_, fun _ => ?_⟩
  · intro hst
    simp only at hst
    split at hst <;> cases hst
  · intro hst
    simp only at hst
    split at hst
    · assumption
    · cases hst
  · simp only [Bool.and_eq_true, decide_eq_true_eq] at hsel
    exact (h.rows e he).fenced (.inr (.inl hsel.2.1))

/-- A new effect is in order when its order is as the operation left it. -/
theorem EffectOk.new {orders : List OrderRow} {next : Nat} {event : CommerceEvent}
    {key : EventKey} {kind : EffectKind} {payload : CommerceEvent}
    {status : Option ShipmentStatus} {o : OrderRow} (ho : o ∈ orders)
    (hk : orderKey o = (event.tenantId, event.orderId))
    (hst : o.status = event.operation.orderStatus) :
    EffectOk orders next (newEffect event key kind payload status o) :=
  ⟨nofun, nofun, nofun, fun _ => ⟨o, ho, hk, rfl, hst⟩⟩

theorem StoreInv.queueEffects {s : Store} {event downstream : CommerceEvent}
    {st : ShipmentStatus} (h : StoreInv s)
    (hst : ∀ o ∈ s.orders, orderKey o = (event.tenantId, event.orderId) →
      o.status = event.operation.orderStatus) :
    StoreInv (queueEffects event downstream st s) := by
  have hkeys : KeyUnique effectKey (Fulfillment.queueEffects event downstream st s).effects :=
    queueEffects_keys h.effects
  have hrows : ∀ e ∈ (Fulfillment.queueEffects event downstream st s).effects,
      EffectOk s.orders s.nextToken e := by
    intro e he
    rcases queueEffects_new he with he | ⟨o, ho, hk, key, kind, payload, status, rfl⟩
    · exact h.rows e he
    · exact .new ho hk (hst o ho hk)
  rw [queueEffects_frame]
  exact ⟨h.claims, h.orders, h.shipments, hkeys, hrows⟩

theorem startProcessing_status {now : Nat} {o : OrderRow} (h : isTerminalOrder o.status = false) :
    (startProcessing now o).status = .processing := by
  unfold startProcessing
  cases hst : o.status <;> rw [hst] at h <;> first | rfl | exact hst | cases h

theorem startProcessing_key (now : Nat) (o : OrderRow) :
    orderKey (startProcessing now o) = orderKey o := by
  unfold startProcessing
  split <;> rfl

/-- An order that is processing, or done, stays as it is. -/
theorem startProcessing_self {now : Nat} {o : OrderRow}
    (h : o.status = .processing ∨ isTerminalOrder o.status = true) :
    startProcessing now o = o := by
  unfold startProcessing
  cases hst : o.status <;> simp [hst, isTerminalOrder] at h ⊢

theorem isFulfillable_key {s : Store} {o o' : OrderRow} (h : isFulfillable s o o' = true) :
    orderKey o' = orderKey o ∧ isTerminalOrder o'.status = false := by
  simp only [isFulfillable, Bool.and_eq_true, isOpenOrder_eq, Bool.not_eq_true'] at h
  exact ⟨isOrder_iff.mp h.1.1, h.1.2⟩

theorem isFulfillable_self {s : Store} {o : OrderRow} (hst : isTerminalOrder o.status = false)
    (hidle : ∀ sh ∈ s.shipments, shipmentKey sh = (o.tenantId, o.id, 1) →
      isTerminalShipment sh.status = false) : isFulfillable s o o = true := by
  simp only [isFulfillable, Bool.and_eq_true, isOpenOrder_eq, hst, Bool.not_eq_true',
    List.any_eq_false]
  refine ⟨⟨isOrder_iff.mpr rfl, trivial⟩, fun sh hsh => ?_⟩
  rintro ⟨hk, hterm⟩
  rw [hidle sh hsh (isShipment_iff.mp hk)] at hterm
  cases hterm

theorem Upserted.keys {s : Store} {o : OrderRow} {t : List Shipment} (h : Upserted s o t)
    (hu : KeyUnique shipmentKey s.shipments) : KeyUnique shipmentKey t := by
  cases h with
  | touch => exact hu.updateWhere fun _ _ _ => rfl
  | insert hnew => exact hu.append_singleton fun sh hsh => hnew sh hsh

/-- The selection of `cancelOrder`. -/
theorem cancelOrder_order {s : Store} {o o' : OrderRow} (ho' : o' ∈ (cancelOrder o s).orders) :
    (o' ∈ s.orders ∧ (orderKey o' = orderKey o → isTerminalOrder o'.status = true)) ∨
      orderKey o' = orderKey o ∧ o'.status = .cancelled := by
  obtain ⟨o₁, ho₁, rfl⟩ := mem_updateWhere.mp ho'
  split
  · rename_i hsel
    simp only [Bool.and_eq_true] at hsel
    exact .inr ⟨isOrder_iff.mp hsel.1, rfl⟩
  · rename_i hsel
    refine .inl ⟨ho₁, fun hk => ?_⟩
    have hord : isOrder o.tenantId o.id o₁ = true := isOrder_iff.mpr hk
    simpa [hord, isOpenOrder_eq] using hsel

/-- Orders `cancelOrder` leaves alone. -/
theorem mem_cancelOrder {s : Store} {o o' : OrderRow} (ho' : o' ∈ s.orders)
    (h : orderKey o' ≠ orderKey o ∨ isTerminalOrder o'.status = true) :
    o' ∈ (cancelOrder o s).orders := by
  refine mem_updateWhere_of_not ho' ?_
  rcases h with hk | hst
  · have hno : isOrder o.tenantId o.id o' = false := by
      by_contra hord
      exact hk (isOrder_iff.mp (by simpa using hord))
    rw [hno, Bool.false_and]
  · rw [isOpenOrder_eq, hst]
    exact Bool.and_false _

/-- The effects after `cancelOrder`: the fulfillment effects of the order no
longer wait. -/
theorem cancelOrder_effect {s : Store} {o : OrderRow} {e' : EffectRow}
    (he' : e' ∈ (cancelOrder o s).effects) :
    (e' ∈ s.effects ∧ (e'.purpose = (o.tenantId, o.id, .fulfillment) → ¬ e'.Waits)) ∨
      ∃ e ∈ s.effects, e.purpose = (o.tenantId, o.id, .fulfillment) ∧
        e' = { e with status := .cancelled, claimToken := none, claimUntil := none } := by
  obtain ⟨e, he, rfl⟩ := mem_updateWhere.mp he'
  split
  · rename_i hsel
    simp only [Bool.and_eq_true, decide_eq_true_eq] at hsel
    refine .inr ⟨e, he, ?_, rfl⟩
    simp [EffectRow.purpose, hsel.1]
  · rename_i hsel
    refine .inl ⟨he, fun hp hw => hsel ?_⟩
    simp only [EffectRow.purpose, Prod.mk.injEq] at hp
    simp only [Bool.and_eq_true, decide_eq_true_eq]
    exact ⟨hp, hw⟩

theorem StoreInv.cancelOrder {s : Store} {o : OrderRow} (h : StoreInv s) :
    StoreInv (cancelOrder o s) where
  claims := h.claims
  orders := h.orders.updateWhere fun _ _ _ => rfl
  shipments := h.shipments.updateWhere fun _ _ _ => rfl
  effects := h.effects.updateWhere fun _ _ _ => rfl
  rows := by
    intro e' he'
    rcases cancelOrder_effect he' with ⟨he, hno⟩ | ⟨e, he, -, rfl⟩
    · have hold := h.rows e' he
      refine ⟨hold.token, hold.claimed, hold.failed, fun hw => ?_⟩
      obtain ⟨o', ho', hk, hv, hst⟩ := hold.fenced hw
      refine ⟨o', mem_cancelOrder ho' ?_, hk, hv, hst⟩
      by_cases hkey : orderKey o' = orderKey o
      · -- a waiting fulfillment effect of this order would have been cancelled
        cases hop : e'.operation with
        | cancellation =>
          rw [hst, hop]
          exact .inr rfl
        | fulfillment =>
          refine absurd hw (hno ?_)
          have hids : e'.tenantId = o.tenantId ∧ e'.orderId = o.id := by
            simpa [orderKey] using hk.symm.trans hkey
          simp [EffectRow.purpose, hids, hop]
      · exact .inl hkey
    · refine ⟨nofun, nofun, nofun, ?_⟩
      rintro (hst | hst | hst) <;> cases hst

/-- **The step of the tables**, for a processed event. -/
theorem StoreInv.processing {event : CommerceEvent} {s u : Store} (h : StoreInv s)
    (hp : Processing event s u) : StoreInv u := by
  cases hp with
  | terminal => exact h
  | gone => exact h
  | @cancel o hop ho hk hst =>
    refine h.cancelOrder.queueEffects fun o' ho' hk' => ?_
    rw [hop]
    rcases cancelOrder_order ho' with ⟨hold, hterm⟩ | ⟨-, hc⟩
    · have hsame := h.orders.eq_of_mem hold ho (hk'.trans hk.symm)
      have := hterm (hk'.trans hk.symm)
      rw [hsame, hst] at this
      cases this
    · exact hc
  | @fulfill o sh shipments hop ho hk hst hidle hships hsh hshk =>
    have horders : KeyUnique orderKey
        (updateWhere (isFulfillable s o) (startProcessing s.now) s.orders) :=
      h.orders.updateWhere fun o' _ _ => startProcessing_key _ _
    refine StoreInv.queueEffects ⟨h.claims, horders, hships.keys h.shipments, h.effects, ?_⟩ ?_
    · intro e he
      refine (h.rows e he).mono le_rfl fun hf => hf.imp fun o' ho' hst' => ?_
      have hself : startProcessing s.now o' = o' := by
        refine startProcessing_self (hst'.imp_right fun hc => ?_)
        rw [hc]
        rfl
      refine mem_updateWhere.mpr ⟨o', ho', ?_⟩
      split
      · exact hself.symm
      · rfl
    · intro o' ho' hk'
      obtain ⟨o₁, ho₁, rfl⟩ := mem_updateWhere.mp ho'
      have hsel := isFulfillable_self hst hidle
      have hkey : orderKey o₁ = orderKey o := by
        split at hk'
        · exact (startProcessing_key s.now o₁).symm.trans (hk'.trans hk.symm)
        · exact hk'.trans hk.symm
      cases h.orders.eq_of_mem ho₁ ho hkey
      rw [if_pos hsel, hop]
      exact startProcessing_status hst

/-! ## The other services -/

/-- What the rest of the system does not write. -/
structure ServiceFrame (s u : Store) : Prop where
  claims : u.claims = s.claims
  nextToken : u.nextToken = s.nextToken
  shipments : u.shipments = s.shipments
  effects : u.effects = s.effects
  now : s.now ≤ u.now

theorem environment_frame {e : Environment} {s u : Store} (h : e.step s = some u) :
    ServiceFrame s u := by
  cases e with
  | elapse time =>
    cases h
    exact ⟨rfl, rfl, rfl, rfl, Nat.le_add_right _ _⟩
  | payments =>
    cases h
    exact ⟨rfl, rfl, rfl, rfl, le_rfl⟩
  | locations =>
    cases h
    exact ⟨rfl, rfl, rfl, rfl, le_rfl⟩
  | placeOrder order =>
    simp only [Environment.step] at h
    split at h
    · cases h
      exact ⟨rfl, rfl, rfl, rfl, le_rfl⟩
    · cases h
  | settleOrder =>
    cases h
    exact ⟨rfl, rfl, rfl, rfl, le_rfl⟩

/-- Checkout writes pending orders only. -/
theorem environment_order {e : Environment} {s u : Store} (h : e.step s = some u) {o : OrderRow}
    (ho : o ∈ s.orders) (hst : o.status ≠ .pending) : o ∈ u.orders := by
  cases e with
  | elapse time =>
    cases h
    exact ho
  | payments =>
    cases h
    exact ho
  | locations =>
    cases h
    exact ho
  | placeOrder order =>
    simp only [Environment.step] at h
    split at h
    · cases h
      exact List.mem_append_left _ ho
    · cases h
  | settleOrder =>
    cases h
    exact mem_updateWhere_of_not ho (by simp [hst])

theorem StoreInv.environment {e : Environment} {s u : Store} (h : StoreInv s)
    (he : e.step s = some u) : StoreInv u := by
  have hframe := environment_frame he
  have horders : KeyUnique orderKey u.orders := by
    cases e with
    | elapse =>
      cases he
      exact h.orders
    | payments =>
      cases he
      exact h.orders
    | locations =>
      cases he
      exact h.orders
    | placeOrder order =>
      simp only [Environment.step] at he
      split at he
      · rename_i hnew
        cases he
        refine h.orders.append_singleton fun o ho hk => ?_
        exact List.any_eq_false.mp hnew.2 o ho (isOrder_iff.mpr hk)
      · cases he
    | settleOrder =>
      cases he
      exact h.orders.updateWhere fun _ _ _ => rfl
  refine ⟨hframe.claims ▸ hframe.nextToken ▸ h.claims, horders, hframe.shipments ▸ h.shipments,
    hframe.effects ▸ h.effects, ?_⟩
  rw [hframe.effects, hframe.nextToken]
  refine fun x hx => (h.rows x hx).mono le_rfl fun hf => hf.imp fun o ho hst => ?_
  exact environment_order he ho (by rcases hst with hst | hst <;> rw [hst] <;> nofun)

theorem StoreInv.moved {s u : Store} (h : StoreInv s) (hm : Moved s u) : StoreInv u := by
  cases hm with
  | claims hw =>
    exact ⟨h.claims.write hw, h.orders, h.shipments, h.effects,
      fun e he => (h.rows e he).mono hw.next_le id⟩
  | process hp => exact h.processing hp
  | claimEffects event token => exact h.claimEffects event token
  | publish hp => exact h.publishEffect hp
  | release hr => exact h.releaseEffect hr
  | environment he => exact h.environment he

/-! ## Every step is a move -/

/-- A statement leaves the store it commits, or the one it found. -/
theorem moved_of_execute {α : Type} {e : Failure} {fault : Fault} {s s' : Store} {r : Outcome α}
    {x : Except Failure α} (h : execute e fault s r = (x, s'))
    (hok : ∀ a u, r = .ok (a, u) → Moved s u) : Moved s s' := by
  rcases execute_store h with rfl | ⟨a, ha⟩
  · exact .refl _
  · exact hok a s' ha

theorem acquireClaim_moved {consumer : Consumer} {key : EventKey} {event : CommerceEvent}
    {s u : Store} {d : ClaimDecision} (hi : ClaimInv s.claims s.nextToken)
    (h : acquireClaim consumer key event s = .ok (d, u)) : Moved s u := by
  have hw := acquireClaim_write hi h
  have hspec := acquireClaim_spec hi consumer key event
  rw [h] at hspec
  cases hspec <;> exact .claims hw

theorem renewLease_moved {t : TenantId} {c : Consumer} {k : EventKey} {token : Nat}
    {s u : Store} {r : Unit} (h : renewLease t c k token s = .ok (r, u)) : Moved s u := by
  have hw := renewLease_write h
  obtain ⟨rfl, -⟩ := updateHeld_ok h
  exact .claims hw

theorem markCompleted_moved {t : TenantId} {c : Consumer} {k : EventKey} {token : Nat}
    {s u : Store} {r : Unit} (h : markCompleted t c k token s = .ok (r, u)) : Moved s u := by
  have hw := markCompleted_write h
  obtain ⟨rfl, -⟩ := updateHeld_ok h
  exact .claims hw

theorem markFailed_moved {t : TenantId} {c : Consumer} {k : EventKey} {token : Nat}
    {permanent : Bool} {s u : Store} {r : Unit}
    (h : markFailed c t k token permanent s = .ok (r, u)) : Moved s u := by
  have hw := markFailed_write h
  obtain ⟨rfl, -⟩ := updateHeld_ok h
  exact .claims hw

theorem validateEffectClaim_moved {effect : EffectRow} {key : EventKey} {token : Nat}
    {s u : Store} {r : Unit} (h : validateEffectClaim effect key token s = .ok (r, u)) :
    Moved s u := by
  unfold validateEffectClaim at h
  split at h
  · cases h
    exact .refl s
  · cases h

theorem startStep_moved {c : Choice} {d : Delivery} {s : Store}
    (hi : ClaimInv s.claims s.nextToken) : Moved s (startStep c d s).2 := by
  unfold startStep
  split
  · exact .refl s
  · split <;> rename_i h <;> exact moved_of_execute h fun _ _ => acquireClaim_moved hi

theorem completeStep_moved {c : Choice} {d : Delivery} {token : Nat} {s : Store} :
    Moved s (completeStep c d token s).2 := by
  unfold completeStep
  split <;> rename_i h <;> exact moved_of_execute h fun _ _ => markCompleted_moved

theorem validateStep_moved {c : Choice} {d : Delivery} {token : Nat} {effect : EffectRow}
    {rest : List EffectRow} {s : Store} : Moved s (validateStep c d token effect rest s).2 := by
  unfold validateStep
  split
  · exact .refl s
  · split <;> rename_i h <;> exact moved_of_execute h fun _ _ => validateEffectClaim_moved

theorem Delivery.step_moved {c : Choice} {d d' : Delivery} {s u : Store} (hi : StoreInv s)
    (h : d.step c s = some (d', u)) : Moved s u := by
  unfold Delivery.step at h
  simp only at h
  split at h
  · have hu : (startStep c d s).2 = u := congrArg Prod.snd (Option.some.inj h)
    exact hu ▸ startStep_moved hi.claims
  · split at h <;> rename_i hx <;> cases h <;>
      exact moved_of_execute hx fun _ _ hok => .process (processOrderInTransaction_ok hi.orders hok)
  · split at h <;> rename_i hx <;> cases h <;>
      exact moved_of_execute hx fun _ _ => markFailed_moved
  · split at h
    · cases h
      exact .refl _
    · split at h <;> rename_i hx <;> cases h <;>
        exact moved_of_execute hx fun _ _ => renewLease_moved
  · split at h
    · cases h
      exact .refl _
    · split at h <;> rename_i hx <;> cases h <;>
        exact moved_of_execute hx fun _ _ hok => by cases hok; exact .claimEffects d.event _
  · have hu : (completeStep c d _ s).2 = u := congrArg Prod.snd (Option.some.inj h)
    exact hu ▸ completeStep_moved
  · split at h
    · cases h
    · have hu : (validateStep c d _ _ _ s).2 = u := congrArg Prod.snd (Option.some.inj h)
      exact hu ▸ validateStep_moved
  · split at h
    · cases h
      exact .refl _
    · split at h <;> cases h <;> exact .refl _
  · split at h
    · cases h
      exact .refl _
    · split at h <;> rename_i hx <;> cases h <;>
        exact moved_of_execute hx fun _ _ hok => .publish hok
  · split at h
    · cases h
      exact .refl _
    · split at h <;> cases h <;> exact .refl _
  · cases h
    exact moved_of_execute rfl fun _ _ hok => .release hok
  · split at h <;> rename_i hx <;> cases h <;>
      exact moved_of_execute hx fun _ _ => markFailed_moved
  · split at h
    · cases h
      exact .refl _
    · split at h <;> cases h <;> exact .refl _
  all_goals cases h

theorem Delivery.beat_moved {fault : Fault} {d d' : Delivery} {s u : Store}
    (h : d.beat fault s = some (d', u)) : Moved s u := by
  unfold Delivery.beat at h
  split at h
  · cases h
  · split at h
    · cases h
    · split at h <;> rename_i hx <;> cases h <;>
        exact moved_of_execute hx fun _ _ => renewLease_moved

/-- What one step of the system does to the tables. -/
theorem step_moved {st st' : State} {a : Action} (hi : StoreInv st.store)
    (h : step st a = some st') : Moved st.store st'.store := by
  cases a with
  | deliver event =>
    cases h
    exact .refl _
  | run i c =>
    simp only [step] at h
    split at h
    · cases h
    · obtain ⟨⟨d', u⟩, hd, rfl⟩ := Option.map_eq_some_iff.mp h
      exact Delivery.step_moved hi hd
  | heartbeat i fault =>
    simp only [step] at h
    split at h
    · cases h
    · obtain ⟨⟨d', u⟩, hd, rfl⟩ := Option.map_eq_some_iff.mp h
      exact Delivery.beat_moved hd
  | crash i =>
    simp only [step] at h
    split at h
    · cases h
    · cases h
      exact .refl _
  | environment e =>
    obtain ⟨u, hu, rfl⟩ := Option.map_eq_some_iff.mp h
    exact .environment hu

theorem StoreInv.step {st st' : State} {a : Action} (hi : StoreInv st.store)
    (h : Fulfillment.step st a = some st') : StoreInv st'.store :=
  hi.moved (step_moved hi h)

/-- The tables of every reachable state. -/
theorem StoreInv.reach {ok : State → Action → Prop} {st₀ st : State} (h₀ : Initial st₀)
    (h : Reach Fulfillment.step ok st₀ st) : StoreInv st.store :=
  h.invariant (I := fun st => StoreInv st.store) (.initial h₀) fun _ _ _ hi _ hs => hi.step hs

/-! ## Cancellation is final -/

/-- What stays of an order: its row, its shipments and its fulfillment
effects. -/
structure Untouched (s u : Store) (o : OrderRow) : Prop where
  order : o ∈ u.orders
  shipments : ∀ sh : Shipment, sh.tenantId = o.tenantId ∧ sh.orderId = o.id →
    (sh ∈ u.shipments ↔ sh ∈ s.shipments)
  effects : ∀ e : EffectRow, e.purpose = (o.tenantId, o.id, .fulfillment) →
    (e ∈ u.effects ↔ e ∈ s.effects)

theorem Untouched.trans {s u v : Store} {o : OrderRow} (h₁ : Untouched s u o)
    (h₂ : Untouched u v o) : Untouched s v o where
  order := h₂.order
  shipments sh hsh := (h₂.shipments sh hsh).trans (h₁.shipments sh hsh)
  effects e he := (h₂.effects e he).trans (h₁.effects e he)

section Cancelled

variable {s u : Store} {o : OrderRow}

/-- A fulfillment effect of a cancelled order does not wait. -/
theorem StoreInv.cancelled_waits (h : StoreInv s) (ho : o ∈ s.orders)
    (hc : o.status = .cancelled) {e : EffectRow} (he : e ∈ s.effects)
    (hp : e.purpose = (o.tenantId, o.id, .fulfillment)) : ¬ e.Waits := by
  intro hw
  simp only [EffectRow.purpose, Prod.mk.injEq] at hp
  obtain ⟨o', ho', hk, -, hst⟩ := (h.rows e he).fenced hw
  have hkey : orderKey o' = orderKey o := by
    rw [hk, hp.1, hp.2.1]
    rfl
  cases h.orders.eq_of_mem ho' ho hkey
  rw [hc, hp.2.2] at hst
  cases hst

/-- Its fence is down. -/
theorem StoreInv.cancelled_isCurrent (h : StoreInv s) (ho : o ∈ s.orders)
    (hc : o.status = .cancelled) {e : EffectRow}
    (hp : e.purpose = (o.tenantId, o.id, .fulfillment)) : isCurrent s e = false := by
  simp only [EffectRow.purpose, Prod.mk.injEq] at hp
  refine List.any_eq_false.mpr fun o' ho' hcur => ?_
  simp only [Bool.and_eq_true, isOrder_iff] at hcur
  have hkey : orderKey o' = orderKey o := by
    rw [hcur.1.1, hp.1, hp.2.1]
    rfl
  cases h.orders.eq_of_mem ho' ho hkey
  rw [hp.2.2, hc] at hcur
  cases hcur.2

theorem untouched_queueEffects {event downstream : CommerceEvent} {st : ShipmentStatus}
    (h : Untouched s u o) (hk : (event.tenantId, event.orderId) ≠ orderKey o) :
    Untouched s (queueEffects event downstream st u) o := by
  have heffects : ∀ e : EffectRow, e.purpose = (o.tenantId, o.id, .fulfillment) →
      (e ∈ (queueEffects event downstream st u).effects ↔ e ∈ u.effects) := by
    intro e hp
    refine ⟨fun he => ?_, queueEffects_mem⟩
    rcases queueEffects_new he with he | ⟨o', -, -, key, kind, payload, status, rfl⟩
    · exact he
    · simp only [EffectRow.purpose, newEffect, Prod.mk.injEq] at hp
      exact absurd (Prod.ext hp.1 hp.2.1) hk
  rw [queueEffects_frame]
  exact ⟨h.order, h.shipments, fun e hp => (heffects e hp).trans (h.effects e hp)⟩

/-- Processing an event leaves a cancelled order alone. -/
theorem StoreInv.cancelled_processing {event : CommerceEvent} (h : StoreInv s)
    (ho : o ∈ s.orders) (hc : o.status = .cancelled) (hp : Processing event s u) :
    Untouched s u o := by
  have hother : ∀ o' ∈ s.orders, isTerminalOrder o'.status = false → orderKey o' ≠ orderKey o := by
    intro o' ho' hst hk
    rw [h.orders.eq_of_mem ho' ho hk, hc] at hst
    cases hst
  have hrefl : Untouched s s o := ⟨ho, fun _ _ => Iff.rfl, fun _ _ => Iff.rfl⟩
  cases hp with
  | terminal => exact hrefl
  | gone => exact hrefl
  | @cancel o' hop ho' hk hst =>
    have hne := hother o' ho' hst
    refine untouched_queueEffects ⟨mem_cancelOrder ho (.inl hne.symm), ?_, ?_⟩ (hk ▸ hne)
    · intro sh hsh
      refine mem_updateWhere_outside
        (P := fun sh => sh.tenantId = o.tenantId ∧ sh.orderId = o.id) (fun r _ hsel => ?_) hsh
      simp only [Bool.and_eq_true, decide_eq_true_eq] at hsel
      have hno : ¬ (r.tenantId = o.tenantId ∧ r.orderId = o.id) := by
        rintro ⟨ht, hi⟩
        exact hne (Prod.ext (hsel.1.1.symm.trans ht) (hsel.1.2.symm.trans hi))
      exact ⟨hno, hno⟩
    · intro e he
      refine mem_updateWhere_outside
        (P := fun e => e.purpose = (o.tenantId, o.id, .fulfillment)) (fun r _ hsel => ?_) he
      simp only [Bool.and_eq_true, decide_eq_true_eq] at hsel
      have hno : ¬ r.purpose = (o.tenantId, o.id, .fulfillment) := by
        intro hpur
        simp only [EffectRow.purpose, Prod.mk.injEq] at hpur
        exact hne (Prod.ext (hsel.1.1.symm.trans hpur.1) (hsel.1.2.1.symm.trans hpur.2.1))
      exact ⟨hno, hno⟩
  | @fulfill o' sh shipments hop ho' hk hst hidle hships hsh hshk =>
    have hne := hother o' ho' hst
    refine untouched_queueEffects ⟨?_, ?_, fun _ _ => Iff.rfl⟩ (hk ▸ hne)
    · refine mem_updateWhere_of_not ho ?_
      by_contra hsel
      exact hne (isFulfillable_key (by simpa using hsel)).1.symm
    · intro x hx
      cases hships with
      | touch =>
        refine mem_updateWhere_outside
          (P := fun sh => sh.tenantId = o.tenantId ∧ sh.orderId = o.id) (fun r _ hsel => ?_) hx
        have hno : ¬ (r.tenantId = o.tenantId ∧ r.orderId = o.id) := by
          rintro ⟨ht, hi⟩
          simp only [isShipment, decide_eq_true_eq] at hsel
          exact hne (Prod.ext (hsel.1.symm.trans ht) (hsel.2.1.symm.trans hi))
        exact ⟨hno, hno⟩
      | insert =>
        refine ⟨fun hmem => ?_, List.mem_append_left _⟩
        rcases List.mem_append.mp hmem with hmem | hmem
        · exact hmem
        · rw [List.mem_singleton.mp hmem] at hx
          exact absurd (Prod.ext hx.1 hx.2) hne

/-- No step touches a cancelled order. -/
theorem StoreInv.cancelled_moved (h : StoreInv s) (ho : o ∈ s.orders)
    (hc : o.status = .cancelled) (hm : Moved s u) : Untouched s u o := by
  cases hm with
  | claims => exact ⟨ho, fun _ _ => Iff.rfl, fun _ _ => Iff.rfl⟩
  | process hp => exact h.cancelled_processing ho hc hp
  | claimEffects event token =>
    refine ⟨ho, fun _ _ => Iff.rfl, fun e he => mem_updateWhere_outside
      (P := fun e => e.purpose = (o.tenantId, o.id, .fulfillment)) (fun r _ hsel => ?_) he⟩
    have hno : ¬ r.purpose = (o.tenantId, o.id, .fulfillment) := by
      intro hpur
      simp [isClaimable, h.cancelled_isCurrent ho hc hpur] at hsel
    exact ⟨hno, hno⟩
  | @publish effect key token _ hp =>
    obtain ⟨-, rfl⟩ := publishEffect_ok hp
    refine ⟨ho, fun _ _ => Iff.rfl, fun e he => mem_updateWhere_outside
      (P := fun e => e.purpose = (o.tenantId, o.id, .fulfillment)) (fun r _ hsel => ?_) he⟩
    have hno : ¬ r.purpose = (o.tenantId, o.id, .fulfillment) := by
      intro hpur
      simp [isDispatchable, h.cancelled_isCurrent ho hc hpur] at hsel
    exact ⟨hno, hno⟩
  | release hr =>
    cases hr
    refine ⟨ho, fun _ _ => Iff.rfl, fun e he => mem_updateWhere_outside
      (P := fun e => e.purpose = (o.tenantId, o.id, .fulfillment)) (fun r hr hsel => ?_) he⟩
    have hno : ¬ r.purpose = (o.tenantId, o.id, .fulfillment) := by
      intro hpur
      simp only [Bool.and_eq_true, decide_eq_true_eq] at hsel
      exact h.cancelled_waits ho hc hr hpur (.inr (.inl hsel.2.1))
    exact ⟨hno, hno⟩
  | environment he =>
    have hframe := environment_frame he
    refine ⟨environment_order he ho (by rw [hc]; nofun), fun _ _ => ?_, fun _ _ => ?_⟩
    · rw [hframe.shipments]
    · rw [hframe.effects]

end Cancelled

/-- **Cancellation is final.** In every reachable state the fulfillment effects
of a cancelled order are published or cancelled; and in every state after it,
however deliveries, retries, publications and checkout go on, the row of the
order, its shipments and its fulfillment effects are the same. -/
theorem cancellation_is_final {st₀ st : State} (h₀ : Initial st₀)
    (h : Reach step (fun _ _ => True) st₀ st) {o : OrderRow} (ho : o ∈ st.store.orders)
    (hc : o.status = .cancelled) :
    (∀ e ∈ st.store.effects, e.purpose = (o.tenantId, o.id, .fulfillment) →
      e.status = .published ∨ e.status = .cancelled) ∧
    ∀ st', Reach step (fun _ _ => True) st st' → Untouched st.store st'.store o := by
  have hinv := StoreInv.reach h₀ h
  constructor
  · intro e he hp
    have hno := hinv.cancelled_waits ho hc he hp
    cases hst : e.status with
    | published => exact .inl rfl
    | cancelled => exact .inr rfl
    | queued => exact absurd (.inl hst) hno
    | publishing => exact absurd (.inr (.inl hst)) hno
    | failed => exact absurd (.inr (.inr hst)) hno
  · intro st' hreach
    refine (hreach.invariant (I := fun t => StoreInv t.store ∧ Untouched st.store t.store o)
      ⟨hinv, ho, fun _ _ => Iff.rfl, fun _ _ => Iff.rfl⟩ fun t a v hi _ hs => ?_).2
    exact ⟨hi.1.step hs, hi.2.trans (hi.1.cancelled_moved hi.2.order hc (step_moved hi.1 hs))⟩

/-! A paid order whose shipment is under way is cancelled; the event of the
payment comes back and changes nothing. -/

def sampleState : State where
  store :=
    { sampleClaims with
      payments := [⟨1, 1, 1, .captured, 100, 1, 0⟩]
      locations := [⟨1, 1, 1, true⟩] }
  deliveries := []

def sampleCancel : CommerceEvent := { sampleEvent with eventType := .orderCancelled }

def proceed (delivery : Nat) : Action := .run delivery ⟨.none, none, 0⟩

def sampleCancellation : List Action :=
  [.deliver sampleEvent, proceed 0, proceed 0, .deliver sampleCancel, proceed 1, proceed 1]

theorem cancellation_is_final_sample :
    ∃ st, run step sampleState sampleCancellation = some st ∧
      ∃ o, o ∈ st.store.orders ∧ o.status = .cancelled ∧
        ∀ st', Reach step (fun _ _ => True) st st' → Untouched st.store st'.store o := by
  have hrun : ((run step sampleState sampleCancellation).map
      fun st => st.store.orders.map OrderRow.status) = some [.cancelled] := by
    decide
  obtain ⟨st, hst, horders⟩ := Option.map_eq_some_iff.mp hrun
  obtain ⟨o, ho, hc⟩ := List.map_eq_singleton_iff.mp horders
  have hmem : o ∈ st.store.orders := by
    rw [ho]
    exact List.mem_singleton_self o
  have hinit : Initial sampleState := by
    refine ⟨?_, ?_, rfl, rfl, rfl⟩ <;> decide
  exact ⟨st, hst, o, hmem, hc, (cancellation_is_final hinit (reach_of_run hst) hmem hc).2⟩

end CommercePlayground.Fulfillment
