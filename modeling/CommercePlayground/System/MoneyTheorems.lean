/-
CommercePlayground.System.MoneyTheorems — the money of an order, over every run of
the system.

* `charged_at_most_once`: every payment pays one order, of its own request and over its
  exact total, and no order has two.
* `paid_orders_captured`: an order is paid only when its payment is captured in full, and
  its paid event names that payment.
* `completed_compensation_final`: once a payment compensation is recorded as completed,
  nothing of the payment is held, and its row stays as it is.
-/
import CommercePlayground.System.FinalizationTheorems

namespace CommercePlayground.System

open Lib Checkout

/-! ## One payment for an order -/

/-- The payment is the one of the order's own request, over the order's total. -/
structure PaymentFor (o : Order) (p : Payment) : Prop where
  tenantId : p.tenantId = o.tenantId
  orderId : p.orderId = o.id
  id : p.id = paymentOf o.tenantId o.checkoutRequestId
  amount : p.amountMinor = o.totalMinor
  currency : p.currency = o.currency

/-- Payments are made in the currency of their orders. -/
def Priced (db : Db) : Prop :=
  ∀ p ∈ db.payment.payments, ∀ o ∈ db.checkout.orders, p.orderId = o.id →
    p.currency = o.currency

/-- The order that a process knows is a stored one. -/
theorem DbInv.known_order {db : Db} (h : DbInv db) {order : PendingOrder}
    {requestId : RequestId} (hknown : Known (facts db) order requestId) :
    ∃ o ∈ db.checkout.orders, o.tenantId = order.tenantId ∧ o.id = order.id ∧
      o.checkoutRequestId = requestId ∧ o.totalMinor = order.totalMinor ∧
      o.currency = order.currency := by
  obtain ⟨⟨o, ho, heq⟩, x, hx, -, hid, hrequest⟩ := hknown
  have hoid : o.id = order.id := by
    rw [← heq]
    rfl
  obtain rfl : o = x := h.orders.eq_of_mem ho hx (hoid.trans hid.symm)
  refine ⟨o, ho, ?_, hid, hrequest, ?_, ?_⟩ <;> rw [← heq] <;> rfl

/-- The order of a payment. -/
theorem DbInv.order_of_payment {db : Db} (h : DbInv db) (hpriced : Priced db) {p : Payment}
    (hp : p ∈ db.payment.payments) : ∃ o ∈ db.checkout.orders, PaymentFor o p ∧
      (p.capturedAmountMinor = 0 ∨ p.capturedAmountMinor = o.totalMinor) := by
  obtain ⟨order, requestId, hknown, ht, hid, hpid, hamount, hcaptured⟩ := h.pays p hp
  obtain ⟨o, ho, hto, hoid, hrequest, htotal, -⟩ := h.known_order hknown
  have horder : p.orderId = o.id := hid.trans hoid.symm
  refine ⟨o, ho, ⟨ht.trans hto.symm, horder, ?_, hamount.trans htotal.symm,
    hpriced p hp o ho horder⟩, ?_⟩
  · rw [hpid, hto, hrequest]
  · rw [htotal, ← hamount]
    exact hcaptured

section Currency

variable {tx : Tx} {db db' : Db}

/-- A new order has no payment yet, and the others keep their currency. -/
theorem Priced.change (h : Priced db) (hdb : DbInv db) (hc : Change tx db db') :
    Priced db' := by
  obtain ⟨hpayment, -, -⟩ := hc.frame
  intro p hp
  rw [hpayment] at hp
  have hold : ∀ {sel : Order → Bool} {st : OrderStatus}, ∀ o ∈ updateWhere sel
      (fun o => { o with status := st }) db.checkout.orders, p.orderId = o.id →
        p.currency = o.currency := by
    intro sel st o ho hid
    obtain ⟨x, hx, rfl⟩ := mem_updateWhere.mp ho
    split at hid
    · rename_i hsel
      rw [if_pos hsel]
      exact h p hp x hx hid
    · rename_i hsel
      rw [if_neg hsel]
      exact h p hp x hx hid
  have hw := Change.orders hc
  generalize db'.checkout.orders = t at hw ⊢
  cases hw with
  | same => exact h p hp
  | insert =>
    intro o ho hid
    rcases List.mem_append.mp ho with ho | ho
    · exact h p hp o ho hid
    · -- the id of the new order is fresh
      obtain ⟨x, hx, hfor, -⟩ := hdb.order_of_payment h hp
      rw [List.mem_singleton.mp ho] at hid
      have hlt := hdb.below x hx
      rw [← hfor.orderId, hid] at hlt
      exact absurd hlt (lt_irrefl _)
  | cancel => exact hold
  | pay => exact hold

/-- A new payment is asked for in the currency of its order. -/
theorem Priced.effect {Q : PaymentStore.Scope} (h : Priced db) (hdb : DbInv db)
    (hneeds : ∀ q, Q.requests q → paymentNeeds q (facts db))
    (he : PaymentStore.Effect Q db db') : Priced db' := by
  obtain ⟨hck, -, -, -⟩ := PaymentEffect.frame he
  have horders : db'.checkout.orders = db.checkout.orders := by rw [hck]
  unfold Priced
  rw [horders]
  have hkeep : ∀ {sel : Payment → Bool} {f : Payment → Payment},
      (∀ p, PaymentStore.SameIdentity p (f p)) →
      ∀ p ∈ updateWhere sel f db.payment.payments, ∀ o ∈ db.checkout.orders,
        p.orderId = o.id → p.currency = o.currency := by
    intro sel f hsame
    refine forall_updateWhere h fun p hp _ hrow o ho hid => ?_
    rw [(hsame p).currency]
    exact hrow o ho ((hsame p).orderId ▸ hid)
  cases he with
  | refl => exact h
  | refuse => exact h
  | quarantine => exact hkeep fun _ => ⟨rfl, rfl, rfl, rfl, rfl, rfl, rfl⟩
  | resolve => exact hkeep fun p => PaymentStore.sameIdentity_resolve _ _ p
  | @act q res db₁ hq hvalid hnew hact =>
    cases hact with
    | @authorize o m mt token order status p hmessage horder hpay htotal hinact hst hp =>
      refine forall_append_singleton h fun x hx hid => ?_
      obtain ⟨known, requestId, hknown, -, hconcerns, -⟩ := hneeds q hq
      rw [hmessage] at hconcerns
      obtain ⟨hoid, hm⟩ := hconcerns
      obtain ⟨y, hy, -, hyid, -, -, hcurrency⟩ := hdb.known_order hknown
      rw [hp] at hid ⊢
      obtain rfl : x = y := hdb.orders.eq_of_mem hx hy (by rw [hyid, ← hoid]; exact hid.symm)
      rw [hcurrency]
      exact congrArg Money.currency hm
    | capture => exact hkeep fun _ => ⟨rfl, rfl, rfl, rfl, rfl, rfl, rfl⟩
    | void => exact hkeep fun _ => ⟨rfl, rfl, rfl, rfl, rfl, rfl, rfl⟩
    | refund => exact hkeep fun _ => ⟨rfl, rfl, rfl, rfl, rfl, rfl, rfl⟩

/-- What every write of checkout and every effect of payment keeps, a step of the system
keeps. -/
theorem Moved.keeps {I : Db → Prop} (hm : Moved db db') (hdb : DbInv db) (h : I db)
    (hchange : ∀ tx a b, DbInv a → tx.needs (System.facts a) → I a → Change tx a b → I b)
    (heffect : ∀ Q a b, DbInv a → (∀ q, Q.requests q → paymentNeeds q (System.facts a)) → I a →
      PaymentStore.Effect Q a b → I b)
    (hframe : ∀ a b : Db, b.checkout = a.checkout →
      b.payment.payments = a.payment.payments → a.nextUuid = b.nextUuid → I a → I b) :
    I db' := by
  rcases hm with rfl | ⟨a, hneeds, hc⟩
  · exact h
  · cases hc with
    | @checkout tx r db' hr =>
      refine ((Tx.run_changes hr).invariant
        (I := fun x => (DbInv x ∧ System.facts db ⊆ System.facts x) ∧ I x)
        ⟨⟨hdb, Set.Subset.rfl⟩, h⟩ ?_).2
      rintro x y ⟨⟨hx, hsub⟩, hi⟩ hstep
      have hn := Tx.needs_mono hsub hneeds
      exact ⟨⟨hx.change hn hstep, hsub.trans (facts_change hstep)⟩,
        hchange tx x y hx hn hi hstep⟩
    | inventory hK heff =>
      obtain ⟨hck, hp, -, hu⟩ := heff.frame
      exact hframe db db' hck (by rw [hp]) hu.symm h
    | @payment a db' heff =>
      have hscope : ∀ q, (PaymentStore.scope db a).requests q →
          paymentNeeds q (System.facts db) := by
        intro q hq
        cases PaymentStore.scope_request hq
        exact hneeds
      refine (heff.invariant (I := fun x => (DbInv x ∧ System.facts db ⊆ System.facts x) ∧ I x)
        ⟨⟨hdb, Set.Subset.rfl⟩, h⟩ ?_).2
      rintro x y ⟨⟨hx, hsub⟩, hi⟩ hstep
      have hn := fun q hq => paymentNeeds_mono hsub (hscope q hq)
      exact ⟨⟨hx.effect hn hstep, hsub.trans (facts_effect hx.payment.1 hstep)⟩,
        heffect _ x y hx hn hi hstep⟩
    | decided hnow hi =>
      obtain ⟨rfl, -, -⟩ := PaymentStore.insertDecision_ok hi
      exact hframe db _ rfl rfl rfl h
    | elapse => exact hframe db _ rfl rfl rfl h

theorem Priced.moved (h : Priced db) (hdb : DbInv db) (hm : Moved db db') : Priced db' :=
  hm.keeps hdb h (fun _ _ _ ha _ hi hc => hi.change ha hc)
    (fun _ _ _ ha hn hi he => hi.effect ha hn he)
    fun a b hck hp _ hi => by
      unfold Priced
      rw [hck, hp]
      exact hi

end Currency

/-! ## Paid orders -/

/-- The event of an order names the payment of its request and its total. -/
def EventFor (o : Order) (e : OutboxEvent) : Prop :=
  e = ⟨o.tenantId, o.id, paymentOf o.tenantId o.checkoutRequestId, o.totalMinor⟩

/-- A paid order's payment is captured in full, and the events are those of orders. -/
structure Backed (db : Db) : Prop where
  orders : ∀ o ∈ db.checkout.orders, o.status = .paid →
    .captured (paymentOf o.tenantId o.checkoutRequestId) ∈ facts db
  events : ∀ e ∈ db.checkout.outbox, ∃ o ∈ db.checkout.orders, EventFor o e

section Backed

variable {tx : Tx} {db db' : Db}

/-- A payment event is written by `finalize_order` only. -/
theorem Change.outbox (hc : Change tx db db') : db'.checkout.outbox = db.checkout.outbox ∨
    ∃ order paymentId fence, tx = .finalizeOrder order paymentId fence ∧
      db'.checkout.outbox = db.checkout.outbox ++ [paidEvent order paymentId] := by
  cases hc with
  | @pay order paymentId fence htx hone =>
    unfold insertPaidEvent
    split
    · exact .inl rfl
    · exact .inr ⟨order, paymentId, fence, htx, rfl⟩
  | cart =>
    unfold ensureCart
    split <;> exact .inl rfl
  | redeem htx hr =>
    obtain ⟨t, rfl⟩ := redeemPromotion_frame hr
    exact .inl rfl
  | openAttempt | reclaim | attempts | uuid | order | cancel | checkOut | exposure | analytics
  | task | tasks | claimTask | reconciliation | reconciliations | claimReconciliation =>
    exact .inl rfl

/-- An order is marked paid by a process that knows the capture of its payment. -/
theorem Backed.change (h : Backed db) (hdb : DbInv db) (hneeds : tx.needs (facts db))
    (hc : Change tx db db') : Backed db' := by
  have hfacts := facts_change hc
  have hevolves := (Change.orders hc).evolves
  have hkept : ∀ e, (∃ o ∈ db.checkout.orders, EventFor o e) →
      ∃ o ∈ db'.checkout.orders, EventFor o e := by
    rintro e ⟨o, ho, he⟩
    obtain ⟨o', ho', st, rfl, -⟩ := hevolves o ho
    exact ⟨_, ho', he⟩
  refine ⟨?_, fun e he => hkept e ?_⟩
  · suffices hall : ∀ o ∈ db'.checkout.orders, o.status = .paid →
        .captured (paymentOf o.tenantId o.checkoutRequestId) ∈ facts db from
      fun o ho hpaid => hfacts (hall o ho hpaid)
    have hw := Change.orders hc
    generalize db'.checkout.orders = t at hw ⊢
    cases hw with
    | same => exact h.orders
    | insert => exact forall_append_singleton h.orders nofun
    | cancel => exact forall_updateWhere h.orders fun _ _ _ _ => nofun
    | @pay order paymentId fence htx =>
      subst htx
      obtain ⟨requestId, hknown, hp, hcaptured⟩ := hneeds
      refine forall_updateWhere h.orders fun o ho hsel _ _ => ?_
      obtain ⟨x, hx, hxt, hxid, hxr, -⟩ := hdb.known_order hknown
      simp only [isPendingOrder, isOrder, Bool.and_eq_true, decide_eq_true_eq] at hsel
      obtain rfl : o = x := hdb.orders.eq_of_mem ho hx (hsel.1.2.trans hxid.symm)
      show Fact.captured (paymentOf o.tenantId o.checkoutRequestId) ∈ facts db
      rw [hxt, hxr, ← hp]
      exact hcaptured
  · rcases Change.outbox hc with heq | ⟨order, paymentId, fence, rfl, heq⟩
    · exact h.events e (heq ▸ he)
    · rw [heq] at he
      rcases List.mem_append.mp he with he | he
      · exact h.events e he
      · obtain ⟨requestId, hknown, hp, -⟩ := hneeds
        obtain ⟨o, ho, hto, hoid, hor, htotal, -⟩ := hdb.known_order hknown
        refine ⟨o, ho, ?_⟩
        rw [List.mem_singleton.mp he, EventFor, paidEvent, hp, hto, hoid, hor, htotal]

theorem Backed.congr (h : Backed db) (horders : db'.checkout.orders = db.checkout.orders)
    (houtbox : db'.checkout.outbox = db.checkout.outbox) (hfacts : facts db ⊆ facts db') :
    Backed db' := by
  refine ⟨?_, ?_⟩
  · rw [horders]
    exact fun o ho hpaid => hfacts (h.orders o ho hpaid)
  · rw [horders, houtbox]
    exact h.events

theorem Backed.moved (h : Backed db) (hdb : DbInv db) (hm : Moved db db') : Backed db' := by
  refine hm.keeps hdb h (fun _ _ _ ha hn hi hc => hi.change ha hn hc)
    (fun _ a b ha _ hi he => ?_) fun a b hck hp hu hi => ?_
  · obtain ⟨hck, -⟩ := PaymentEffect.frame he
    exact hi.congr (by rw [hck]) (by rw [hck]) (facts_effect ha.payment.1 he)
  · exact hi.congr (by rw [hck]) (by rw [hck]) (facts_congr hck hp hu.symm)

end Backed

/-! ## Completed compensations -/

/-- A payment task is stored under the key of its payment, and a completed one settled
it. -/
structure TaskSettled (K : Set Fact) (t : CompensationTask) : Prop where
  base : ∀ p r, taskPayment t.kind = some (p, r) → t.taskKey.base = .payment p
  settled : t.status = .completed → ∀ p r, taskPayment t.kind = some (p, r) → .settled p ∈ K

theorem TaskSettled.mono {K K' : Set Fact} {t : CompensationTask} (h : TaskSettled K t)
    (hK : K ⊆ K') : TaskSettled K' t :=
  ⟨h.base, fun hs p r hp => hK (h.settled hs p r hp)⟩

section Tasks

variable {tx : Tx} {db db' : Db} {K : Set Fact} {t t' : CompensationTask}

theorem TaskSettled.same (h : TaskSettled K t) (hsame : SameTask t t')
    (hstatus : t'.status = .completed → t.status = .completed) : TaskSettled K t' := by
  refine ⟨?_, fun hs => ?_⟩
  · rw [hsame.kind, hsame.taskKey]
    exact h.base
  · rw [hsame.kind]
    exact h.settled (hstatus hs)

theorem TaskSettled.move (h : TaskSettled (facts db) t) (hdb : DbInv db)
    (ht : t ∈ db.checkout.tasks) (hneeds : tx.needs (facts db)) (hm : TaskMove tx db t t') :
    TaskSettled (facts db) t' := by
  have hsame := hm.same
  cases hm with
  | requeue =>
    refine h.same hsame fun hs => ?_
    unfold requeuedTask at hs
    split at hs <;> exact hs
  | @resolve order base fence htx hsel =>
    subst htx
    refine ⟨h.base, fun _ p r hp => ?_⟩
    simp only [isFencedTask, isOrderTask, Bool.and_eq_true, decide_eq_true_eq] at hsel
    have hbase := h.base p r hp
    rw [hsel.1.2.2] at hbase
    exact hneeds p hbase
  | @finish task htx hsel =>
    subst htx
    refine ⟨h.base, fun _ p r hp => ?_⟩
    obtain ⟨⟨x, hx, hid, -, -, hkind⟩, hsettled⟩ := hneeds rfl
    simp only [isHeldBy, Bool.and_eq_true, decide_eq_true_eq] at hsel
    obtain rfl : t = x := hdb.fences.ids.eq_of_mem ht hx (hsel.1.2.1.trans hid.symm)
    exact hsettled p r (hkind ▸ hp)
  | extend | begin | complete => exact h.same hsame id
  | activate | bury | reschedule => exact h.same hsame fun hs => by cases hs

/-- The rows of completed tasks are written by processes that saw the payment settled. -/
theorem taskSettled_change (hdb : DbInv db) (hneeds : tx.needs (facts db))
    (h : ∀ t ∈ db.checkout.tasks, TaskSettled (facts db) t) (hc : Change tx db db') :
    ∀ t ∈ db'.checkout.tasks, TaskSettled (facts db') t := by
  suffices hall : ∀ t ∈ db'.checkout.tasks, TaskSettled (facts db) t from
    fun t ht => (hall t ht).mono (facts_change hc)
  cases hc with
  | task hkey hkind howned =>
    refine forall_append_singleton h ⟨fun p r hp => ?_, nofun⟩
    rcases hkind with ⟨p', r', rfl, rfl, rfl, -⟩ | ⟨r', rs, rfl, -, rfl, rfl⟩
    · cases hp
      rfl
    · cases hp
  | tasks hmove =>
    exact forall_updateWhere h fun t ht hsel hrow => hrow.move hdb ht hneeds (hmove t ht hsel)
  | claimTask =>
    exact forall_updateWhere h fun t _ _ hrow => hrow.same ⟨rfl, rfl, rfl, rfl, rfl⟩ nofun
  | reclaim =>
    exact forall_updateWhere h fun t _ _ hrow => hrow.same ⟨rfl, rfl, rfl, rfl, rfl⟩ nofun
  | cart => unfold ensureCart; split <;> exact h
  | pay => unfold insertPaidEvent; split <;> exact h
  | redeem htx hr =>
    obtain ⟨t, rfl⟩ := redeemPromotion_frame hr
    exact h
  | openAttempt | attempts | uuid | order | cancel | checkOut | exposure | analytics
  | reconciliation | reconciliations | claimReconciliation => exact h

theorem taskSettled_moved (hdb : DbInv db) (hm : Moved db db')
    (h : ∀ t ∈ db.checkout.tasks, TaskSettled (facts db) t) :
    ∀ t ∈ db'.checkout.tasks, TaskSettled (facts db') t := by
  refine hm.keeps (I := fun x => ∀ t ∈ x.checkout.tasks, TaskSettled (facts x) t) hdb h
    (fun _ _ _ ha hn hi hc => taskSettled_change ha hn hi hc) (fun _ a b ha _ hi he => ?_)
    fun a b hck hp hu hi => ?_
  · obtain ⟨hck, -⟩ := PaymentEffect.frame he
    rw [hck]
    exact fun t ht => (hi t ht).mono (facts_effect ha.payment.1 he)
  · rw [hck]
    exact fun t ht => (hi t ht).mono (facts_congr hck hp hu.symm)

end Tasks

/-! ## Runs -/

/-- What holds of the money in every reachable state. -/
structure MoneyInv (s : State) : Prop where
  sys : SysInv s
  priced : Priced s.db
  backed : Backed s.db
  tasks : ∀ t ∈ s.db.checkout.tasks, TaskSettled (facts s.db) t

theorem MoneyInv.step {s u : State} {a : Action} (h : MoneyInv s)
    (hs : System.step s a = some u) : MoneyInv u := by
  obtain ⟨hsys, hm⟩ := h.sys.step hs
  exact ⟨hsys, h.priced.moved h.sys.db hm, h.backed.moved h.sys.db hm,
    taskSettled_moved h.sys.db hm h.tasks⟩

theorem MoneyInv.initial {s : State} (h : Initial s) : MoneyInv s := by
  refine ⟨.initial h, ?_, ⟨?_, ?_⟩, ?_⟩
  · intro p hp
    rw [h.payments] at hp
    cases hp
  · simp [h.orders]
  · simp [h.outbox]
  · simp [h.tasks]

theorem MoneyInv.reach {s₀ s : State} {ok : State → Action → Prop} (h0 : Initial s₀)
    (h : Reach System.step ok s₀ s) : MoneyInv s :=
  h.invariant (.initial h0) fun _ _ _ ht _ hs => ht.step hs

/-- The captured payment of an order's request pays the order in full. -/
theorem MoneyInv.captured_payment {s : State} (h : MoneyInv s) {o : Order}
    (ho : o ∈ s.db.checkout.orders)
    (hcaptured : .captured (paymentOf o.tenantId o.checkoutRequestId) ∈ facts s.db) :
    ∃ p ∈ s.db.payment.payments, PaymentFor o p ∧ p.capturedAmountMinor = o.totalMinor := by
  obtain ⟨p, hp, hid, hfull⟩ := hcaptured
  obtain ⟨x, hx, hfor, -⟩ := h.sys.db.order_of_payment h.priced hp
  have hkey := hid.symm.trans hfor.id
  simp only [paymentOf, PaymentId.mk.injEq, PaymentRequestId.authorize.injEq] at hkey
  obtain rfl : o = x := h.sys.db.requests.eq_of_mem ho hx (by simp [orderKey, hkey])
  exact ⟨p, hp, hfor, hfull.trans hfor.amount⟩

/-- A settled payment holds nothing. -/
theorem balanced_of_inactive {db : Db} {p : Payment} (h : PaymentStore.RowInv db p)
    (hp : PaymentStore.isActive p = false) : p.refundedAmountMinor = p.capturedAmountMinor := by
  have hnonneg := h.refunded_nonneg
  have hle := h.refunded_le
  cases hst : p.status with
  | pending | authorized | captured | partiallyRefunded =>
    simp [PaymentStore.isActive, hst] at hp
  | failed | voided =>
    have hzero := h.uncaptured (by rw [hst]; rfl)
    omega
  | refunded =>
    -- captured in full, and refunded by the status of its balances
    have hstatus := h.status_eq (by rw [hst]; rfl)
    rw [hst, PaymentStore.statusForBalances] at hstatus
    split at hstatus
    · rename_i hlt
      simp [PaymentStore.isActive, hst, hlt] at hp
    · split at hstatus
      · cases hstatus
      · split at hstatus
        · assumption
        · cases hstatus

/-- A settled payment's row is never written again. -/
theorem MoneyInv.settled_kept {s u : State} {ok : State → Action → Prop} (h : MoneyInv s)
    (hr : Reach System.step ok s u) {p : Payment} (hp : p ∈ s.db.payment.payments)
    (hsettled : PaymentStore.isActive p = false) : p ∈ u.db.payment.payments := by
  refine (hr.invariant (I := fun x => MoneyInv x ∧ p ∈ x.db.payment.payments) ⟨h, hp⟩ ?_).2
  rintro x a y ⟨hx, hmem⟩ - hs
  obtain ⟨-, hm⟩ := hx.sys.step hs
  refine ⟨hx.step hs, hm.keeps (I := fun z => p ∈ z.payment.payments) hx.sys.db hmem
    (fun _ _ _ _ _ hi hc => ?_) (fun _ _ _ ha _ hi he => ?_) fun _ _ _ hpay _ hi => hpay ▸ hi⟩
  · obtain ⟨hpay, -, -⟩ := hc.frame
    exact hpay ▸ hi
  · exact ha.payment.1.inactive_kept he p hi hsettled

/-! ## Sample runs -/

/-- The sample shop after a checkout without incidents. -/
def soldShop : State := (run System.step sampleShop sampleCheckout).getD sampleShop

theorem soldShop_reached : Reach System.step (fun _ _ => True) sampleShop soldShop := by
  have hrun : (run System.step sampleShop sampleCheckout).isSome = true := by decide
  obtain ⟨s, hs⟩ := Option.isSome_iff_exists.mp hrun
  have heq : soldShop = s := by
    unfold soldShop
    rw [hs]
    rfl
  rw [heq]
  exact reach_of_run hs

/-! ## Main results -/

/-- **An order is charged at most once.** However requests, retries and workers interleave
and whatever the network loses: every payment pays one order, as the payment of the order's
own request, over its exact total and in its currency; it is captured in full or not at
all, and no order has a second payment. -/
theorem charged_at_most_once {s₀ s : State} (h0 : Initial s₀)
    (h : Reach System.step (fun _ _ => True) s₀ s) :
    (∀ p ∈ s.db.payment.payments, ∃ o ∈ s.db.checkout.orders, PaymentFor o p ∧
      (p.capturedAmountMinor = 0 ∨ p.capturedAmountMinor = o.totalMinor) ∧
      0 ≤ p.refundedAmountMinor ∧ p.refundedAmountMinor ≤ p.capturedAmountMinor) ∧
    ∀ p ∈ s.db.payment.payments, ∀ q ∈ s.db.payment.payments,
      p.orderId = q.orderId → p = q := by
  have hinv := MoneyInv.reach h0 h
  have hdb := hinv.sys.db
  refine ⟨fun p hp => ?_, fun p hp q hq hsame => ?_⟩
  · obtain ⟨o, ho, hfor, hcaptured⟩ := hdb.order_of_payment hinv.priced hp
    have hrow := hdb.payment.1.rows p hp
    exact ⟨o, ho, hfor, hcaptured, hrow.refunded_nonneg, hrow.refunded_le⟩
  · obtain ⟨o, ho, hp', -⟩ := hdb.order_of_payment hinv.priced hp
    obtain ⟨x, hx, hq', -⟩ := hdb.order_of_payment hinv.priced hq
    obtain rfl : o = x := hdb.orders.eq_of_mem ho hx
      (hp'.orderId.symm.trans (hsame.trans hq'.orderId))
    exact hdb.payment.1.ids.eq_of_mem hp hq (hp'.id.trans hq'.id.symm)

theorem charged_at_most_once_sample :
    soldShop.db.payment.payments.map (·.capturedAmountMinor) = [200] ∧
      ∀ p ∈ soldShop.db.payment.payments, ∀ q ∈ soldShop.db.payment.payments,
        p.orderId = q.orderId → p = q :=
  ⟨by decide, (charged_at_most_once sampleShop_initial soldShop_reached).2⟩

/-- **No order is paid without its money.** The payment of a paid order is captured over
the order's total, and every paid event is the one of a paid order and names this
payment. -/
theorem paid_orders_captured {s₀ s : State} (h0 : Initial s₀)
    (h : Reach System.step (fun _ _ => True) s₀ s) :
    (∀ o ∈ s.db.checkout.orders, o.status = .paid → ∃ p ∈ s.db.payment.payments,
      PaymentFor o p ∧ p.capturedAmountMinor = o.totalMinor) ∧
    ∀ e ∈ s.db.checkout.outbox, ∃ o ∈ s.db.checkout.orders, o.status = .paid ∧
      o.tenantId = e.tenantId ∧ o.id = e.orderId ∧ e.totalMinor = o.totalMinor ∧
      ∃ p ∈ s.db.payment.payments, p.id = e.paymentId ∧ PaymentFor o p ∧
        p.capturedAmountMinor = e.totalMinor := by
  have hinv := MoneyInv.reach h0 h
  have hdb := hinv.sys.db
  have hpaid : ∀ o ∈ s.db.checkout.orders, o.status = .paid → ∃ p ∈ s.db.payment.payments,
      PaymentFor o p ∧ p.capturedAmountMinor = o.totalMinor :=
    fun o ho hst => hinv.captured_payment ho (hinv.backed.orders o ho hst)
  refine ⟨hpaid, fun e he => ?_⟩
  obtain ⟨o, ho, heq⟩ := hinv.backed.events e he
  obtain ⟨x, hx, ht, hid, hst⟩ := (FinalInv.reach h0 h).paid.sound e he
  have heq' : e.orderId = o.id := by rw [heq]
  obtain rfl : x = o := hdb.orders.eq_of_mem hx ho (hid.trans heq')
  obtain ⟨p, hp, hfor, hcaptured⟩ := hpaid x hx hst
  refine ⟨x, hx, hst, ht, hid, by rw [heq], p, hp, ?_, hfor, ?_⟩
  · rw [heq]
    exact hfor.id
  · rw [heq]
    exact hcaptured

theorem paid_orders_captured_sample :
    soldShop.db.checkout.orders.map (·.status) = [.paid] ∧
      ∀ o ∈ soldShop.db.checkout.orders, o.status = .paid →
        ∃ p ∈ soldShop.db.payment.payments,
          PaymentFor o p ∧ p.capturedAmountMinor = o.totalMinor :=
  ⟨by decide, (paid_orders_captured sampleShop_initial soldShop_reached).1⟩

/-- **A completed compensation is final.** The payment of a payment compensation task that
is recorded as completed was made for the task's order, everything captured of it has been
refunded, and the row is the same in every later state. -/
theorem completed_compensation_final {s₀ s : State} (h0 : Initial s₀)
    (h : Reach System.step (fun _ _ => True) s₀ s) :
    ∀ t ∈ s.db.checkout.tasks, t.status = .completed →
      ∀ paymentId requestId, taskPayment t.kind = some (paymentId, requestId) →
        ∃ p ∈ s.db.payment.payments, p.id = paymentId ∧ p.orderId = t.orderId ∧
          p.refundedAmountMinor = p.capturedAmountMinor ∧
          ∀ u, Reach System.step (fun _ _ => True) s u → p ∈ u.db.payment.payments := by
  intro t ht hst paymentId requestId hkind
  have hinv := MoneyInv.reach h0 h
  have hdb := hinv.sys.db
  obtain ⟨p, hp, hid, hsettled⟩ := (hinv.tasks t ht).settled hst paymentId requestId hkind
  obtain ⟨hpayment, x, hx, hxt, hxid, hxr⟩ := hdb.tasks t ht paymentId requestId hkind
  obtain ⟨o, ho, hfor, -⟩ := hdb.order_of_payment hinv.priced hp
  have hkey := hfor.id.symm.trans (hid.trans hpayment)
  simp only [paymentOf, PaymentId.mk.injEq, PaymentRequestId.authorize.injEq] at hkey
  obtain rfl : o = x := hdb.requests.eq_of_mem ho hx (by simp [orderKey, hkey, hxt, hxr])
  exact ⟨p, hp, hid, hfor.orderId.trans hxid,
    balanced_of_inactive (hdb.payment.1.rows p hp) hsettled,
    fun u hu => hinv.settled_kept hu hp hsettled⟩

/-- More pieces of the article than there are. -/
def oversizedRequest : CheckoutInput := { sampleRequest 7 with items := [⟨1, 11⟩] }

def oversizedQuote : QuoteResponse :=
  { sampleQuote with
    lines := [⟨1, 11, some ⟨1, 100⟩, some ⟨1, 1100⟩⟩]
    subtotal := some ⟨1, 1100⟩
    grandTotal := some ⟨1, 1100⟩ }

def commits (thread n : Nat) : List Action := List.replicate n (.run thread .commit)

/-- A call is sent, handled and answered. -/
def answers (thread call reply : Nat) : List Action :=
  [.run thread .send, .deliver call, .run thread (.receive reply)]

/-- The authorized payment is voided after inventory refused the reservation. -/
def oversizedCheckout : List Action :=
  [.spawn (.checkout oversizedRequest)] ++ commits 0 2 ++
    [.run 0 (.catalog (.ok ())), .run 0 (.pricing (.ok oversizedQuote))] ++ commits 0 1 ++
    sampleCall 0 0 0 ++ sampleCall 0 1 1 ++ commits 0 4 ++ sampleCall 0 2 2 ++ commits 0 7 ++
    [.run 0 .go] ++ answers 0 3 3 ++ answers 0 4 4 ++ answers 0 5 5 ++ [.run 0 .go] ++
    commits 0 5

/-- The sample shop after a checkout that was compensated. -/
def compensatedShop : State := (run System.step sampleShop oversizedCheckout).getD sampleShop

theorem compensatedShop_reached :
    Reach System.step (fun _ _ => True) sampleShop compensatedShop := by
  have hrun : (run System.step sampleShop oversizedCheckout).isSome = true := by decide
  obtain ⟨s, hs⟩ := Option.isSome_iff_exists.mp hrun
  have heq : compensatedShop = s := by
    unfold compensatedShop
    rw [hs]
    rfl
  rw [heq]
  exact reach_of_run hs

theorem completed_compensation_final_sample :
    compensatedShop.db.checkout.orders.map (·.status) = [.cancelled] ∧
      ∃ t ∈ compensatedShop.db.checkout.tasks, ∃ paymentId requestId,
        t.status = .completed ∧ taskPayment t.kind = some (paymentId, requestId) ∧
          ∃ p ∈ compensatedShop.db.payment.payments, p.id = paymentId ∧
            p.refundedAmountMinor = p.capturedAmountMinor := by
  have hdone : compensatedShop.db.checkout.orders.map (·.status) = [.cancelled] ∧
      (compensatedShop.db.checkout.tasks.map fun t => (t.status, (taskPayment t.kind).isSome)) =
        [(.completed, false), (.completed, true)] := by decide
  have hmem : (TaskStatus.completed, true) ∈ compensatedShop.db.checkout.tasks.map
      fun t => (t.status, (taskPayment t.kind).isSome) := by
    rw [hdone.2]
    exact List.mem_cons_of_mem _ List.mem_cons_self
  obtain ⟨t, ht, heq⟩ := List.mem_map.mp hmem
  simp only [Prod.mk.injEq] at heq
  obtain ⟨⟨paymentId, requestId⟩, hkind⟩ := Option.isSome_iff_exists.mp heq.2
  obtain ⟨p, hp, hid, -, hbalance, -⟩ := completed_compensation_final sampleShop_initial
    compensatedShop_reached t ht heq.1 paymentId requestId hkind
  exact ⟨hdone.1, t, ht, paymentId, requestId, heq.1, hkind, p, hp, hid, hbalance⟩

end CommercePlayground.System
