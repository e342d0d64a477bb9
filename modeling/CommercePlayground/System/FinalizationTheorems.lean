/-
CommercePlayground.System.FinalizationTheorems — an order is finalized once.

Every step of the system either leaves paid orders, carts, promotions and
events alone (`Unfinalized`) or finalizes one order as a whole
(`Finalization`): the order is paid, its cart checked out, its promotion
redeemed and its event inserted by one transaction. So the paid orders and the
events stay in step (`PaidInv`) through every interleaving.
-/
import CommercePlayground.System.ProcessTheorems

namespace CommercePlayground.System

open Lib Checkout

/-! ## What a step does to a finalization's tables -/

/-- Nothing is finalized: no order becomes paid, and paid orders, carts,
promotions and events stay. -/
structure Unfinalized (db db' : Db) : Prop where
  paid : ∀ o ∈ db'.checkout.orders, o.status = .paid → o ∈ db.checkout.orders
  kept : ∀ o ∈ db.checkout.orders, o.status = .paid → o ∈ db'.checkout.orders
  carts : db.checkout.carts <+: db'.checkout.carts
  promotions : db'.checkout.promotions = db.checkout.promotions
  outbox : db'.checkout.outbox = db.checkout.outbox

/-- An order is finalized: of each table one row is written, and the paid
event of the order is new. -/
structure Finalization (o : Order) (db db' : Db) : Prop where
  pending : o.status = .pending
  order : Replaces o { o with status := .paid } db.checkout.orders db'.checkout.orders
  cart : ∃ c : Cart, c.tenantId = o.tenantId ∧ c.id = o.cartId ∧ c.status = .active ∧
    Replaces c { c with status := .checkedOut } db.checkout.carts db'.checkout.carts
  promotion : ∀ code, o.promotionCode = some code → code ≠ 0 → ∃ p : Promotion,
    p.tenantId = o.tenantId ∧ p.code = code ∧
    (∀ m, p.maxRedemptions = some m → p.redemptionCount + 1 ≤ m) ∧
    Replaces p { p with redemptionCount := p.redemptionCount + 1 }
      db.checkout.promotions db'.checkout.promotions
  unpromoted : (∀ code, o.promotionCode = some code → code = 0) →
    db'.checkout.promotions = db.checkout.promotions
  event : ∃ paymentId, db'.checkout.outbox =
    db.checkout.outbox ++ [⟨o.tenantId, o.id, paymentId, o.totalMinor⟩]

theorem Unfinalized.of_eq {db db' : Db} (ho : db'.checkout.orders = db.checkout.orders)
    (hc : db'.checkout.carts = db.checkout.carts)
    (hp : db'.checkout.promotions = db.checkout.promotions)
    (he : db'.checkout.outbox = db.checkout.outbox) : Unfinalized db db' :=
  ⟨fun _ h _ => ho ▸ h, fun _ h _ => ho ▸ h, hc ▸ List.prefix_rfl, hp, he⟩

theorem Unfinalized.refl (db : Db) : Unfinalized db db := .of_eq rfl rfl rfl rfl

theorem Unfinalized.trans {a b c : Db} (h₁ : Unfinalized a b) (h₂ : Unfinalized b c) :
    Unfinalized a c where
  paid := fun o ho hp => h₁.paid o (h₂.paid o ho hp) hp
  kept := fun o ho hp => h₂.kept o (h₁.kept o ho hp) hp
  carts := h₁.carts.trans h₂.carts
  promotions := h₂.promotions.trans h₁.promotions
  outbox := h₂.outbox.trans h₁.outbox

/-- The status of an order is paid by `finalize_order` only. -/
theorem Change.unfinalized {tx : Tx} {db db' : Db} (h : Change tx db db')
    (htx : ∀ order paymentId fence, tx ≠ .finalizeOrder order paymentId fence) :
    Unfinalized db db' := by
  cases h with
  | order =>
    refine ⟨fun o ho hp => ?_, fun o ho _ => List.mem_append_left _ ho, List.prefix_rfl, rfl, rfl⟩
    rcases List.mem_append.mp ho with ho | ho
    · exact ho
    · rw [List.mem_singleton.mp ho] at hp
      cases hp
  | @cancel t id =>
    refine ⟨fun o ho hp => ?_, fun o ho hp => ?_, List.prefix_rfl, rfl, rfl⟩
    · obtain ⟨x, hx, rfl⟩ := mem_updateWhere.mp ho
      split at hp
      · cases hp
      · rename_i hsel
        rw [if_neg hsel]
        exact hx
    · refine mem_updateWhere_of_not ho ?_
      simp [isPendingOrder, hp]
  | cart =>
    unfold ensureCart
    split
    · exact .refl _
    · exact ⟨fun _ h _ => h, fun _ h _ => h, List.prefix_append _ _, rfl, rfl⟩
  | pay h => exact absurd h (htx _ _ _)
  | checkOut h => exact absurd h (htx _ _ _)
  | redeem h => exact absurd h (htx _ _ _)
  | openAttempt | reclaim | attempts | uuid | exposure | analytics | task | tasks | claimTask
  | reconciliation | reconciliations | claimReconciliation => exact .of_eq rfl rfl rfl rfl

/-- A committed step finalizes the order of a process that knows it, or
nothing. -/
theorem Moved.finalizes {db db' : Db} (hm : Moved db db') : Unfinalized db db' ∨
    ∃ order paymentId, .stored order ∈ System.facts db ∧
      Finalizes order paymentId db db' := by
  rcases hm with rfl | ⟨a, hneeds, hc⟩
  · exact .inl (.refl _)
  · cases hc with
    | @checkout tx r db' hr =>
      by_cases htx : ∃ order paymentId fence, tx = .finalizeOrder order paymentId fence
      · obtain ⟨order, paymentId, fence, rfl⟩ := htx
        obtain ⟨requestId, hknown, -⟩ := hneeds
        exact .inr ⟨order, paymentId, hknown.1, finalizeOrder_ok hr⟩
      · refine .inl ((Tx.run_changes hr).invariant (I := Unfinalized db) (.refl db) ?_)
        intro x y hx hstep
        exact hx.trans (Change.unfinalized hstep fun o p f heq => htx ⟨o, p, f, heq⟩)
    | inventory hK heff =>
      obtain ⟨hck, -⟩ := heff.frame
      exact .inl (.of_eq (by rw [hck]) (by rw [hck]) (by rw [hck]) (by rw [hck]))
    | payment heff =>
      refine .inl (heff.invariant (I := Unfinalized db) (.refl db) ?_)
      intro x y hx hstep
      obtain ⟨hck, -⟩ := PaymentEffect.frame hstep
      exact hx.trans (.of_eq (by rw [hck]) (by rw [hck]) (by rw [hck]) (by rw [hck]))
    | decided hnow hi =>
      obtain ⟨rfl, -, -⟩ := PaymentStore.insertDecision_ok hi
      exact .inl (.of_eq rfl rfl rfl rfl)
    | elapse => exact .inl (.of_eq rfl rfl rfl rfl)

/-! ## Paid orders and their events -/

/-- The key of an event. -/
def eventKey (e : OutboxEvent) : TenantId × OrderId := (e.tenantId, e.orderId)

/-- The events are those of the paid orders. -/
structure PaidInv (db : Db) : Prop where
  unique : KeyUnique eventKey db.checkout.outbox
  sound : ∀ e ∈ db.checkout.outbox, .paid e.tenantId e.orderId ∈ facts db
  complete : ∀ o ∈ db.checkout.orders, o.status = .paid →
    ∃ e ∈ db.checkout.outbox, eventKey e = (o.tenantId, o.id)

/-- A paid order has one event, any other order none. -/
theorem PaidInv.count {db : Db} (h : PaidInv db) (hdb : DbInv db) {o : Order}
    (ho : o ∈ db.checkout.orders) : affected (isPaidEvent o.tenantId o.id) db.checkout.outbox =
      if o.status = .paid then 1 else 0 := by
  split
  · rename_i hpaid
    obtain ⟨e, he, hkey⟩ := h.complete o ho hpaid
    simp only [eventKey, Prod.mk.injEq] at hkey
    refine h.unique.affected_eq_one he (by simp [isPaidEvent, hkey]) fun x _ hx => ?_
    simp only [isPaidEvent, decide_eq_true_eq] at hx
    simp [eventKey, hx, hkey]
  · rename_i hunpaid
    refine List.countP_eq_zero.mpr fun e he hsel => hunpaid ?_
    simp only [isPaidEvent, decide_eq_true_eq] at hsel
    obtain ⟨x, hx, -, hid, hpaid⟩ := h.sound e he
    rw [hdb.orders.eq_of_mem ho hx (hsel.2.symm.trans hid.symm)]
    exact hpaid

/-- **A finalization, row by row.** The order a process finalizes is the
stored one, and being pending it has no event yet. -/
theorem PaidInv.finalization {db db' : Db} (h : PaidInv db) (hdb : DbInv db)
    {order : PendingOrder} {paymentId : PaymentId} (hstored : Fact.stored order ∈ facts db)
    (hf : Finalizes order paymentId db db') : ∃ o, Finalization o db db' := by
  obtain ⟨o, hsel, horders⟩ := replaces_updateWhere
    (f := fun o => { o with status := OrderStatus.paid }) hf.one
  obtain ⟨c, hcart, hcarts⟩ := replaces_updateWhere
    (f := fun c => { c with status := CartStatus.checkedOut }) hf.active
  obtain ⟨x, hx, heq⟩ := hstored
  generalize order.sessionId = session at heq
  subst heq
  simp only [isPendingOrder, isOrder, Bool.and_eq_true, decide_eq_true_eq] at hsel
  simp only [isActiveCart, decide_eq_true_eq] at hcart
  obtain rfl : o = x := hdb.orders.eq_of_mem horders.mem.1 hx hsel.1.2
  refine ⟨o, hsel.2, hf.orders ▸ horders, ⟨c, hcart.1, hcart.2.1, hcart.2.2,
    hf.carts ▸ hcarts⟩, fun code hcode hne => ?_, fun hnone => ?_, paymentId, ?_⟩
  · have hredeem : redeemedCode (pendingOrder o session) = some code := by
      simp [redeemedCode, pendingOrder, hcode, hne]
    obtain ⟨p, hp, hpromotions⟩ := replaces_updateWhere
      (f := fun p => { p with redemptionCount := p.redemptionCount + 1 })
      (hf.redeemable code hredeem)
    have hnew := hf.promotions
    simp only [redeemed, hredeem] at hnew
    simp only [isRedeemable, Bool.and_eq_true, decide_eq_true_eq] at hp
    refine ⟨p, hp.1.1.1.1.1, hp.1.1.1.1.2, fun m hm => ?_, hnew ▸ hpromotions⟩
    have hbound := hp.2
    rw [hm] at hbound
    exact Nat.succ_le_of_lt (by simpa using hbound)
  · have hredeem : redeemedCode (pendingOrder o session) = none := by
      cases hc : o.promotionCode with
      | none => simp [redeemedCode, pendingOrder, hc]
      | some code => simp [redeemedCode, pendingOrder, hc, hnone code hc]
    rw [hf.promotions, redeemed, hredeem]
  · have hzero := h.count hdb hx
    rw [hsel.2, if_neg (by decide)] at hzero
    rw [hf.outbox, insertMissing, if_neg]
    · rfl
    · rw [List.any_eq_true]
      rintro ⟨e, he, hev⟩
      exact absurd hev (by simp [pendingOrder, affected_eq_zero hzero e he])

theorem PaidInv.unfinalized {db db' : Db} (h : PaidInv db) (hu : Unfinalized db db') :
    PaidInv db' where
  unique := hu.outbox ▸ h.unique
  sound := by
    rw [hu.outbox]
    intro e he
    obtain ⟨o, ho, ht, hid, hpaid⟩ := h.sound e he
    exact ⟨o, hu.kept o ho hpaid, ht, hid, hpaid⟩
  complete := by
    rw [hu.outbox]
    exact fun o ho hpaid => h.complete o (hu.paid o ho hpaid) hpaid

theorem Finalization.kept {db db' : Db} {o x : Order} (h : Finalization o db db')
    (hx : x ∈ db.checkout.orders) (hpaid : x.status = .paid) : x ∈ db'.checkout.orders := by
  refine h.order.kept hx fun heq => ?_
  rw [heq, h.pending] at hpaid
  cases hpaid

theorem PaidInv.finalized {db db' : Db} {o : Order} (h : PaidInv db) (hdb : DbInv db)
    (hf : Finalization o db db') : PaidInv db' := by
  obtain ⟨paymentId, hevent⟩ := hf.event
  have hzero := h.count hdb hf.order.mem.1
  rw [hf.pending, if_neg (by decide)] at hzero
  refine ⟨?_, ?_, ?_⟩
  · rw [hevent]
    refine h.unique.append_singleton fun e he heq => ?_
    simp only [eventKey, Prod.mk.injEq] at heq
    have hno := affected_eq_zero hzero e he
    simp [isPaidEvent, heq] at hno
  · rw [hevent]
    refine forall_append_singleton (fun e he => ?_) ⟨_, hf.order.mem.2, rfl, rfl, rfl⟩
    obtain ⟨x, hx, ht, hid, hpaid⟩ := h.sound e he
    exact ⟨x, hf.kept hx hpaid, ht, hid, hpaid⟩
  · intro x hx hpaid
    rw [hevent]
    by_cases hx' : x = { o with status := .paid }
    · subst hx'
      exact ⟨_, List.mem_append_right _ (List.mem_singleton_self _), rfl⟩
    · obtain ⟨e, he, hkey⟩ := h.complete x (hf.order.old hx hx') hpaid
      exact ⟨e, List.mem_append_left _ he, hkey⟩

/-! ## Runs -/

/-- What holds in every reachable state. -/
structure FinalInv (s : State) : Prop where
  sys : SysInv s
  paid : PaidInv s.db

theorem FinalInv.step {s u : State} {a : Action} (h : FinalInv s)
    (hs : System.step s a = some u) :
    FinalInv u ∧ (Unfinalized s.db u.db ∨ ∃ o, Finalization o s.db u.db) := by
  obtain ⟨hsys, hm⟩ := h.sys.step hs
  rcases hm.finalizes with hu | ⟨order, paymentId, hstored, hf⟩
  · exact ⟨⟨hsys, h.paid.unfinalized hu⟩, .inl hu⟩
  · obtain ⟨o, ho⟩ := h.paid.finalization h.sys.db hstored hf
    exact ⟨⟨hsys, h.paid.finalized h.sys.db ho⟩, .inr ⟨o, ho⟩⟩

theorem FinalInv.initial {s : State} (h : Initial s) : FinalInv s := by
  refine ⟨.initial h, ?_, ?_, ?_⟩
  · rw [h.outbox]
    exact KeyUnique.nil _
  · simp [h.outbox]
  · simp [h.orders]

theorem FinalInv.reach {s₀ s : State} {ok : State → Action → Prop} (h0 : Initial s₀)
    (h : Reach System.step ok s₀ s) : FinalInv s :=
  h.invariant (.initial h0) fun _ _ _ ht _ hs => (ht.step hs).1

/-- A paid order stays as it is. -/
theorem FinalInv.kept {s u : State} {ok : State → Action → Prop} (h : FinalInv s)
    (hr : Reach System.step ok s u) :
    ∀ o ∈ s.db.checkout.orders, o.status = .paid → o ∈ u.db.checkout.orders := by
  refine hr.relates (R := fun s u : State => ∀ o ∈ s.db.checkout.orders, o.status = .paid →
    o ∈ u.db.checkout.orders) h (fun _ _ _ ht _ hs => (ht.step hs).1) (fun _ _ ho _ => ho)
    (fun _ _ _ h₁ h₂ o ho hp => h₂ o (h₁ o ho hp) hp) fun t a v ht _ hs o ho hp => ?_
  rcases (ht.step hs).2 with hu | ⟨x, hx⟩
  · exact hu.kept o ho hp
  · exact hx.kept ho hp

/-- What became of a transaction that reported an error: nothing, unless only
its reply was lost. -/
theorem txStep_error {s u : State} {t : Tx} {choice : Choice} {e : ApiError}
    (hs : txStep s t choice = some (.finished u (.error e))) :
    u = s ∨ choice = .commitLost ∧ ∃ r db, t.run s.db = .ok (r, db) ∧ u = { s with db := db } := by
  cases choice with
  | commit =>
    simp only [System.txStep] at hs
    split at hs <;> cases hs
    exact .inl rfl
  | fault f =>
    cases hs
    exact .inl rfl
  | commitLost =>
    simp only [System.txStep] at hs
    split at hs
    · rename_i r db hr
      cases hs
      exact .inr ⟨rfl, r, db, hr, rfl⟩
    · cases hs
  | send | unreachable | receive | truncate | lose | outage | catalog | pricing | go => cases hs

/-- **Finalization happens exactly once.** However handlers, reclaims and
workers interleave: a request has one order, and its attempt is linked to no
other; an order has one paid event if it is paid and none otherwise; every
step finalizes one pending order in full or leaves paid orders, carts,
promotions and events alone; a paid order stays as it is; and a
`finalize_order` that fails before its commit changes nothing. -/
theorem finalized_exactly_once {s₀ s : State} (h0 : Initial s₀)
    (h : Reach System.step (fun _ _ => True) s₀ s) :
    (KeyUnique orderKey s.db.checkout.orders ∧ KeyUnique attemptKey s.db.checkout.attempts ∧
      ∀ a ∈ s.db.checkout.attempts, ∀ id, a.orderId = some id →
        ∃ o ∈ s.db.checkout.orders, o.id = id ∧ orderKey o = attemptKey a) ∧
    (∀ o ∈ s.db.checkout.orders,
      affected (isPaidEvent o.tenantId o.id) s.db.checkout.outbox =
        if o.status = .paid then 1 else 0) ∧
    (∀ e ∈ s.db.checkout.outbox, ∃ o ∈ s.db.checkout.orders,
      o.tenantId = e.tenantId ∧ o.id = e.orderId ∧ o.status = .paid) ∧
    (∀ a u, System.step s a = some u →
      Unfinalized s.db u.db ∨ ∃ o, Finalization o s.db u.db) ∧
    (∀ u, Reach System.step (fun _ _ => True) s u →
      ∀ o ∈ s.db.checkout.orders, o.status = .paid → o ∈ u.db.checkout.orders) ∧
    ∀ order paymentId fence choice e u,
      txStep s (.finalizeOrder order paymentId fence) choice = some (.finished u (.error e)) →
      u = s ∨ choice = .commitLost ∧ Finalizes order paymentId s.db u.db := by
  have hinv := FinalInv.reach h0 h
  refine ⟨⟨hinv.sys.db.requests, hinv.sys.db.fences.attempts, fun a ha id hid => ?_⟩,
    fun o ho => hinv.paid.count hinv.sys.db ho, fun e he => hinv.paid.sound e he,
    fun a u hs => (hinv.step hs).2, fun u hu => hinv.kept hu, ?_⟩
  · obtain ⟨o, ho, ht, hoid, hr⟩ := hinv.sys.db.links a ha id hid
    exact ⟨o, ho, hoid, by simp [orderKey, attemptKey, ht, hr]⟩
  · intro order paymentId fence choice e u hs
    rcases txStep_error hs with heq | ⟨hlost, r, db, hr, rfl⟩
    · exact .inl heq
    · exact .inr ⟨hlost, finalizeOrder_ok hr⟩

/-- A shop with one article and one promotion, and nobody at work. -/
def sampleShop : State where
  db :=
    { now := 0
      nextUuid := 100
      checkout := ⟨[], [], [], [⟨1, 5, 0, none, some 3, 2, true⟩], [], [], [], [], []⟩
      payment := ⟨0, [], [], []⟩
      inventory := ⟨[⟨1, 1, 1, true, true⟩], [⟨1, 1, 1, true⟩], [⟨1, 1, 1, 1, 10, 0⟩], []⟩ }
  net := []
  replies := []
  threads := []

theorem sampleShop_initial : Initial sampleShop :=
  ⟨rfl, rfl, rfl, rfl, rfl, rfl, rfl, rfl, rfl, KeyUnique.nil _, List.nodup_singleton _,
    rfl, rfl, rfl⟩

/-- Two pieces of the article, with the promotion. -/
def sampleRequest (id : Nat) : CheckoutInput where
  tenantId := 1
  customerId := 1
  sessionId := id
  cartId := none
  items := [⟨1, 2⟩]
  currencyCode := 1
  promotionCode := some 5
  paymentMethodToken := .other 0
  paymentMethodType := .card
  requestId := ⟨id, 1⟩
  degrade := false
  profile := 0

def sampleQuote : QuoteResponse where
  ready := true
  identified := true
  validForSeconds := 60
  lines := [⟨1, 2, some ⟨1, 100⟩, some ⟨1, 200⟩⟩]
  subtotal := some ⟨1, 200⟩
  discountTotal := some ⟨1, 0⟩
  taxTotal := some ⟨1, 0⟩
  grandTotal := some ⟨1, 200⟩

/-- A fenced call of a process that is sent, handled and answered. -/
def sampleCall (thread call reply : Nat) : List Action :=
  [.run thread .commit, .run thread .go, .run thread .send, .deliver call,
    .run thread (.receive reply), .run thread .go, .run thread .commit]

/-- A process claims its attempt, takes its quote and creates its order. -/
def sampleOrder (thread : Nat) (input : CheckoutInput) : List Action :=
  [.spawn (.checkout input), .run thread .commit, .run thread .commit,
    .run thread (.catalog (.ok ())), .run thread (.pricing (.ok sampleQuote)),
    .run thread .commit]

/-- A checkout without incidents: reserve, authorize, capture, consume and
finalize. -/
def sampleCheckout : List Action :=
  sampleOrder 0 (sampleRequest 7) ++ sampleCall 0 0 0 ++ sampleCall 0 1 1 ++ [.run 0 .commit] ++
    sampleCall 0 2 2 ++ sampleCall 0 3 3 ++ [.run 0 .commit, .run 0 .commit]

theorem finalized_exactly_once_sample : ∃ s : State,
    Reach System.step (fun _ _ => True) sampleShop s ∧
    s.db.checkout.promotions.map (·.redemptionCount) = [3] ∧
    ∃ o ∈ s.db.checkout.orders, o.status = .paid ∧
      affected (isPaidEvent o.tenantId o.id) s.db.checkout.outbox = 1 := by
  have hrun : (run System.step sampleShop sampleCheckout).map
      (fun s => (s.db.checkout.promotions.map (·.redemptionCount),
        s.db.checkout.orders.map (·.status))) = some ([3], [.paid]) := by decide
  obtain ⟨s, hs, heq⟩ := Option.map_eq_some_iff.mp hrun
  simp only [Prod.mk.injEq] at heq
  obtain ⟨o, ho, hpaid⟩ := List.mem_map.mp (heq.2 ▸ List.mem_singleton_self _)
  refine ⟨s, reach_of_run hs, heq.1, o, ho, hpaid, ?_⟩
  rw [(finalized_exactly_once sampleShop_initial (reach_of_run hs)).2.1 o ho, if_pos hpaid]

end CommercePlayground.System
