/-
CommercePlayground.System.RecordTheorems — what the tables of the three
services have to do with each other.

`DbInv` is the invariant of the shared database under the checkout processes:
the fences of `FencingTheorems` and the payment invariants, one order for each
request, and for every row that names a request, an order or a payment that
the three belong together. The row predicates speak of the facts of the
contract, which only grow, so a row that is not touched keeps them
(`DbInv.grow`); what is left is the new and the rewritten rows of each write
(`DbInv.change`, `DbInv.effect`).
-/
import CommercePlayground.System.FactTheorems
import CommercePlayground.Checkout.QueueTheorems

namespace CommercePlayground.System

open Lib Checkout

/-! ## Rows -/

/-- The key of the order of a request. -/
def orderKey (o : Order) : TenantId × RequestId := (o.tenantId, o.checkoutRequestId)

/-- An attempt is linked to the order of its own request. -/
def Linked (K : Set Fact) (a : CheckoutAttempt) : Prop :=
  ∀ id, a.orderId = some id → .ofRequest a.tenantId id a.requestId ∈ K

/-- A payment task is about the payment of its order's request. -/
def TaskRow (K : Set Fact) (t : CompensationTask) : Prop :=
  ∀ p r, taskPayment t.kind = some (p, r) →
    p = paymentOf t.tenantId r ∧ .ofRequest t.tenantId t.orderId r ∈ K

/-- A reconciliation is about the order and the payment of its request. -/
structure ReconciliationRow (K : Set Fact) (r : Reconciliation) : Prop where
  order : .ofRequest r.tenantId r.orderId r.requestId ∈ K
  payment : ∀ p, r.paymentId = some p → p = paymentOf r.tenantId r.requestId

/-- A payment pays the order of a request, which is captured in full or not
at all. -/
def Pays (K : Set Fact) (p : Payment) : Prop :=
  ∃ order requestId, Known K order requestId ∧ p.tenantId = order.tenantId ∧
    p.orderId = order.id ∧ p.id = paymentOf order.tenantId requestId ∧
    p.amountMinor = order.totalMinor ∧
    (p.capturedAmountMinor = 0 ∨ p.capturedAmountMinor = p.amountMinor)

/-- A stored response says what happened. -/
structure LedgerRow (K : Set Fact) (o : StoredOperation) : Prop where
  operation : o.operation = PaymentStore.operationOf o.requestFingerprint
  authorized : ∀ r, o.result = .ok r → o.operation = .authorize →
    r.payment.paymentId = ⟨o.tenantId, o.requestId⟩
  captured : ∀ r p amount, o.result = .ok r → o.requestFingerprint = .capture p amount →
    .captured p ∈ K

section Mono

variable {K K' : Set Fact} (hK : K ⊆ K')

include hK

theorem Linked.mono {a : CheckoutAttempt} (h : Linked K a) : Linked K' a :=
  fun id hid => hK (h id hid)

theorem TaskRow.mono {t : CompensationTask} (h : TaskRow K t) : TaskRow K' t :=
  fun p r hp => ⟨(h p r hp).1, hK (h p r hp).2⟩

theorem ReconciliationRow.mono {r : Reconciliation} (h : ReconciliationRow K r) :
    ReconciliationRow K' r :=
  ⟨hK h.order, h.payment⟩

theorem Pays.mono {p : Payment} (h : Pays K p) : Pays K' p := by
  obtain ⟨order, requestId, hknown, hrest⟩ := h
  exact ⟨order, requestId, hknown.mono hK, hrest⟩

theorem LedgerRow.mono {o : StoredOperation} (h : LedgerRow K o) : LedgerRow K' o :=
  ⟨h.operation, h.authorized, fun r p amount hr hm => hK (h.captured r p amount hr hm)⟩

end Mono

/-! ## The invariant -/

/-- The rows of the shared database belong together. -/
structure DbInv (db : Db) : Prop where
  payment : PaymentStore.Consistent db
  fences : FenceInv db []
  reservations : KeyUnique Inventory.reservationKey db.inventory.reservations
  orders : KeyUnique (·.id) db.checkout.orders
  below : ∀ o ∈ db.checkout.orders, o.id < db.nextUuid
  requests : KeyUnique orderKey db.checkout.orders
  links : ∀ a ∈ db.checkout.attempts, Linked (facts db) a
  tasks : ∀ t ∈ db.checkout.tasks, TaskRow (facts db) t
  reconciliations : ∀ r ∈ db.checkout.reconciliations, ReconciliationRow (facts db) r
  pays : ∀ p ∈ db.payment.payments, Pays (facts db) p
  ledger : ∀ o ∈ db.payment.operations, LedgerRow (facts db) o

theorem DbInv.keyed {db : Db} (h : DbInv db) : Keyed db :=
  ⟨h.payment.1.ids, h.reservations⟩

/-- The order of a request is one. -/
theorem DbInv.order_eq {db : Db} (h : DbInv db) {t : TenantId} {id id' : OrderId}
    {r r' : RequestId} (h₁ : Fact.ofRequest t id r ∈ facts db)
    (h₂ : Fact.ofRequest t id' r' ∈ facts db) (hkey : id = id' ∨ r = r') :
    id = id' ∧ r = r' := by
  obtain ⟨o, ho, rfl, rfl, rfl⟩ := h₁
  obtain ⟨o', ho', ht, rfl, rfl⟩ := h₂
  have heq : o = o' := by
    rcases hkey with hid | hr
    · exact h.orders.eq_of_mem ho ho' hid
    · exact h.requests.eq_of_mem ho ho' (by simp [orderKey, ht, hr])
  rw [heq]
  exact ⟨rfl, rfl⟩

/-- Two copies of one stored order agree. -/
theorem DbInv.stored_eq {db : Db} (h : DbInv db) {order order' : PendingOrder}
    (h₁ : Fact.stored order ∈ facts db) (h₂ : Fact.stored order' ∈ facts db)
    (hid : order.id = order'.id) : order.totalMinor = order'.totalMinor := by
  obtain ⟨o, ho, heq⟩ := h₁
  obtain ⟨o', ho', heq'⟩ := h₂
  rw [← heq, ← heq'] at hid ⊢
  have hsame : o = o' := h.orders.eq_of_mem ho ho' hid
  rw [hsame]
  rfl

/-- Two orders known for one request are one. -/
theorem DbInv.known_total {db : Db} (h : DbInv db) {order order' : PendingOrder}
    {requestId : RequestId} (h₁ : Known (facts db) order requestId)
    (h₂ : Known (facts db) order' requestId) (ht : order.tenantId = order'.tenantId) :
    order.totalMinor = order'.totalMinor := by
  have hreq := h₁.2
  rw [ht] at hreq
  exact h.stored_eq h₁.1 h₂.1 (h.order_eq hreq h₂.2 (.inr rfl)).1

/-- A payment of the order of a request is the payment of the request. -/
theorem DbInv.pays_id {db : Db} (h : DbInv db) {p : Payment} (hp : p ∈ db.payment.payments)
    {requestId : RequestId}
    (hreq : Fact.ofRequest p.tenantId p.orderId requestId ∈ facts db) :
    p.id = paymentOf p.tenantId requestId := by
  obtain ⟨order, r, hknown, ht, ho, hid, -⟩ := h.pays p hp
  have hreq' := hknown.2
  rw [← ht, ← ho] at hreq'
  rw [hid, ht, (h.order_eq hreq' hreq (.inl rfl)).2]

/-! ## Writes of checkout -/

section Change

variable {tx : Tx} {db db' : Db}

theorem Change.orders_keys (h : Change tx db db') (hinv : DbInv db) :
    KeyUnique (·.id) db'.checkout.orders ∧ (∀ o ∈ db'.checkout.orders, o.id < db'.nextUuid) ∧
      KeyUnique orderKey db'.checkout.orders := by
  have hkeep : ∀ {sel : Order → Bool} {st : OrderStatus} {n : Nat}, db.nextUuid ≤ n →
      KeyUnique (·.id) (updateWhere sel (fun o => { o with status := st }) db.checkout.orders) ∧
      (∀ o ∈ updateWhere sel (fun o => { o with status := st }) db.checkout.orders, o.id < n) ∧
      KeyUnique orderKey
        (updateWhere sel (fun o => { o with status := st }) db.checkout.orders) := by
    intro sel st n hn
    refine ⟨hinv.orders.updateWhere fun _ _ _ => rfl, ?_,
      hinv.requests.updateWhere fun _ _ _ => rfl⟩
    exact forall_updateWhere (fun o ho => lt_of_lt_of_le (hinv.below o ho) hn) fun _ _ _ h => h
  have hsame : db'.checkout.orders = db.checkout.orders →
      KeyUnique (·.id) db'.checkout.orders ∧
      (∀ o ∈ db'.checkout.orders, o.id < db'.nextUuid) ∧
      KeyUnique orderKey db'.checkout.orders := by
    intro heq
    rw [heq]
    exact ⟨hinv.orders, fun o ho => lt_of_lt_of_le (hinv.below o ho) h.fresher.uuid,
      hinv.requests⟩
  cases h with
  | @order input quote lease cartId totals lines htx hcart hnew hlines =>
    refine ⟨hinv.orders.append_singleton fun o ho => (hinv.below o ho).ne, ?_, ?_⟩
    · exact forall_append_singleton (fun o ho => Nat.lt_succ_of_lt (hinv.below o ho))
        (Nat.lt_succ_self _)
    · refine hinv.requests.append_singleton fun o ho heq => ?_
      have hnone := List.find?_eq_none.mp hnew o ho
      simp only [orderKey, newOrder, Prod.mk.injEq] at heq
      simp [heq.1, heq.2] at hnone
  | cancel => exact hkeep le_rfl
  | @pay order paymentId =>
    rw [insertPaidEvent_orders]
    have hn : (insertPaidEvent order paymentId (payOrder db order)).nextUuid = db.nextUuid := by
      unfold insertPaidEvent
      split <;> rfl
    rw [hn]
    exact hkeep le_rfl
  | cart => exact hsame (ensureCart_orders _ _ _)
  | redeem htx hr =>
    obtain ⟨t, rfl⟩ := redeemPromotion_frame hr
    exact hsame rfl
  | openAttempt | reclaim | attempts | uuid | checkOut | exposure | analytics | task | tasks
  | claimTask | reconciliation | reconciliations | claimReconciliation => exact hsame rfl

/-- A move links an attempt to the order of its request only. -/
theorem AttemptMove.linked {a a' : CheckoutAttempt} (h : AttemptMove tx db a a')
    (hneeds : tx.needs (facts db)) (ha : Linked (facts db) a) : Linked (facts db) a' := by
  cases h with
  | extend => exact ha
  | @link input quote lease o htx hsel ho hto hro =>
    rintro id ⟨⟩
    simp only [isLinkable, Bool.and_eq_true] at hsel
    obtain ⟨ht, hr, -⟩ := isGeneration_iff.mp hsel.1.1
    exact ⟨o, ho, hto.trans ht.symm, rfl, hro.trans hr.symm⟩
  | @respond lease status orderId payload htx hsel hst =>
    subst htx
    obtain ⟨ht, hr, -⟩ := isGeneration_iff.mp (isLiveLease_generation hsel).1
    intro id hid
    have hfact := hneeds.2 id hid
    rw [← show a.tenantId = lease.tenantId from ht,
      ← show a.requestId = lease.requestId from hr] at hfact
    exact hfact
  | replay hs ho htx =>
    rintro id ⟨⟩
    exact ha _ ho
  | reconciled htx hsel =>
    rintro id ⟨⟩
    simp only [isSettledBy, Bool.and_eq_true, decide_eq_true_eq] at hsel
    exact ha _ hsel.2
  | fail => exact ha
  | failReconciled => exact ha

theorem Change.links (h : Change tx db db') (hneeds : tx.needs (facts db))
    (hrows : ∀ a ∈ db.checkout.attempts, Linked (facts db) a) :
    ∀ a ∈ db'.checkout.attempts, Linked (facts db) a := by
  have hw := h.attemptWrite
  revert hw
  generalize db'.checkout.attempts = t
  intro hw
  cases hw with
  | same => exact hrows
  | insert => exact forall_append_singleton hrows nofun
  | move hmove =>
    exact forall_updateWhere hrows fun a ha hsel hl =>
      AttemptMove.linked (hmove a ha hsel) hneeds hl
  | reclaim => exact forall_updateWhere hrows fun _ _ _ hl => hl

theorem TaskRow.same {K : Set Fact} {t t' : CompensationTask} (h : TaskRow K t)
    (hs : SameTask t t') : TaskRow K t' := by
  intro p r hp
  rw [hs.kind] at hp
  rw [hs.tenantId, hs.orderId]
  exact h p r hp

theorem Change.taskRows (h : Change tx db db') (hneeds : tx.needs (facts db))
    (hrows : ∀ t ∈ db.checkout.tasks, TaskRow (facts db) t) :
    ∀ t ∈ db'.checkout.tasks, TaskRow (facts db) t := by
  have hkeep : ∀ {sel : CompensationTask → Bool} {f : CompensationTask → CompensationTask},
      (∀ t ∈ db.checkout.tasks, sel t = true → SameTask t (f t)) →
      ∀ t ∈ updateWhere sel f db.checkout.tasks, TaskRow (facts db) t := by
    intro sel f hsame
    exact forall_updateWhere hrows fun t ht hsel hrow => hrow.same (hsame t ht hsel)
  cases h with
  | task hkey hkind howned =>
    refine forall_append_singleton hrows fun p r hp => ?_
    rcases hkind with ⟨p', r', rfl, rfl, rfl, -⟩ | ⟨r', rs, rfl, -, rfl, rfl⟩
    · obtain ⟨hknown, hid, -⟩ := hneeds
      cases hp
      exact ⟨hid, hknown.2⟩
    · cases hp
  | tasks hmove => exact hkeep fun t ht hsel => (hmove t ht hsel).same
  | claimTask => exact hkeep fun _ _ _ => ⟨rfl, rfl, rfl, rfl, rfl⟩
  | reclaim => exact hkeep fun _ _ _ => ⟨rfl, rfl, rfl, rfl, rfl⟩
  | cart => unfold ensureCart; split <;> exact hrows
  | pay => unfold insertPaidEvent; split <;> exact hrows
  | redeem htx hr =>
    obtain ⟨t, rfl⟩ := redeemPromotion_frame hr
    exact hrows
  | openAttempt | attempts | uuid | order | cancel | checkOut | exposure | analytics
  | reconciliation | reconciliations | claimReconciliation => exact hrows

/-- A move that names a payment names the one of the request. -/
theorem ReconciliationMove.row {r r' : Reconciliation} (h : ReconciliationMove tx db r r')
    (hneeds : tx.needs (facts db)) (hr : ReconciliationRow (facts db) r) :
    ReconciliationRow (facts db) r' := by
  cases h with
  | @register order lease paymentId method expired htx hsel ho ht hparent hpay =>
    subst htx
    refine ⟨hr.order, fun p hp => ?_⟩
    simp only [isReconciliation, decide_eq_true_eq] at hsel
    simp only [reregistered] at hp ⊢
    rcases Option.or_eq_some_iff.mp hp with hp | ⟨-, hp⟩
    · exact hr.payment p hp
    · rw [hsel.1, hsel.2]
      exact hneeds.2 p hp
  | @attach job paymentId htx hsel hp hpay =>
    subst htx
    refine ⟨hr.order, ?_⟩
    rintro p ⟨⟩
    simp only [isJob, isReconciliationOf, Bool.and_eq_true, decide_eq_true_eq] at hsel
    have ht : r.tenantId = job.tenantId := hsel.1.1
    have hreq : r.requestId = job.requestId := hsel.1.2.1
    rw [ht, hreq]
    exact hneeds
  | reschedule =>
    unfold rescheduled
    split <;> exact ⟨hr.order, hr.payment⟩
  | extend | wake | exhaust | complete | fail => exact ⟨hr.order, hr.payment⟩

theorem Change.reconciliationRows (h : Change tx db db') (hneeds : tx.needs (facts db))
    (hrows : ∀ r ∈ db.checkout.reconciliations, ReconciliationRow (facts db) r) :
    ∀ r ∈ db'.checkout.reconciliations, ReconciliationRow (facts db) r := by
  cases h with
  | @reconciliation order lease paymentId method expired htx =>
    subst htx
    exact forall_append_singleton hrows ⟨hneeds.1.2, hneeds.2⟩
  | reconciliations hmove =>
    exact forall_updateWhere hrows fun r hr hsel hrow =>
      ReconciliationMove.row (hmove r hr hsel) hneeds hrow
  | claimReconciliation =>
    exact forall_updateWhere hrows fun _ _ _ hrow => ⟨hrow.order, hrow.payment⟩
  | reclaim => exact forall_updateWhere hrows fun _ _ _ hrow => ⟨hrow.order, hrow.payment⟩
  | cart => unfold ensureCart; split <;> exact hrows
  | pay => unfold insertPaidEvent; split <;> exact hrows
  | redeem htx hr =>
    obtain ⟨t, rfl⟩ := redeemPromotion_frame hr
    exact hrows
  | openAttempt | attempts | uuid | order | cancel | checkOut | exposure | analytics | task
  | tasks | claimTask => exact hrows

/-- Every write of a process that knows what it needs keeps the invariant. -/
theorem DbInv.change (h : DbInv db) (hneeds : tx.needs (facts db)) (hc : Change tx db db') :
    DbInv db' := by
  obtain ⟨hp, hi, hn⟩ := hc.frame
  have hfacts := facts_change hc
  obtain ⟨horders, hbelow, hrequests⟩ := Change.orders_keys hc h
  exact {
    payment := ⟨h.payment.1.congr (by rw [hp]) (by rw [hp]) hn,
      h.payment.2.congr (by rw [hp]) (by rw [hp])⟩
    fences := h.fences.change hc
    reservations := hi ▸ h.reservations
    orders := horders
    below := hbelow
    requests := hrequests
    links := fun a ha => (Change.links hc hneeds h.links a ha).mono hfacts
    tasks := fun t ht => (Change.taskRows hc hneeds h.tasks t ht).mono hfacts
    reconciliations := fun r hr =>
      (Change.reconciliationRows hc hneeds h.reconciliations r hr).mono hfacts
    pays := fun p hp' => (h.pays p (hp ▸ hp')).mono hfacts
    ledger := fun o ho => (h.ledger o (hp ▸ ho)).mono hfacts }

theorem DbInv.changes (h : DbInv db) (hneeds : tx.needs (facts db))
    (hc : Changes tx db db') : DbInv db' ∧ facts db ⊆ facts db' := by
  refine hc.invariant (I := fun x => DbInv x ∧ facts db ⊆ facts x) ⟨h, Set.Subset.rfl⟩ ?_
  rintro a b ⟨ha, hsub⟩ hstep
  exact ⟨ha.change (Tx.needs_mono hsub hneeds) hstep, hsub.trans (facts_change hstep)⟩

end Change

/-! ## Transactions of the payment service -/

section Effect

variable {Q : PaymentStore.Scope} {db db' : Db}

/-- A payment update keeps what the payment is for, and its capture. -/
theorem Pays.update {K : Set Fact} {p p' : Payment} (h : Pays K p)
    (hid : PaymentStore.SameIdentity p p')
    (hc : p'.capturedAmountMinor = p.capturedAmountMinor) : Pays K p' := by
  obtain ⟨order, requestId, hknown, ht, ho, hpid, ha, hcap⟩ := h
  refine ⟨order, requestId, hknown, hid.tenantId.trans ht, hid.orderId.trans ho,
    hid.id.trans hpid, hid.amountMinor.trans ha, ?_⟩
  rw [hc, hid.amountMinor]
  exact hcap

/-- A capture of checkout captures everything. -/
theorem DbInv.captures_all (h : DbInv db) {q : PaymentStore.Request}
    (hneeds : paymentNeeds q (facts db)) {p : Payment} {m : Option Money} {amount : Int}
    (hmessage : q.message = .capture p.id m) (hmem : p ∈ db.payment.payments)
    (hle : p.capturedAmountMinor + amount ≤ p.amountMinor)
    (hmoney : ∀ money, m = some money →
      money.amountMinor = amount ∧ money.currency = p.currency) :
    p.capturedAmountMinor + amount = p.amountMinor := by
  obtain ⟨order, requestId, hknown, -, hconcerns, -⟩ := hneeds
  rw [hmessage] at hconcerns
  obtain ⟨hid, hm⟩ := hconcerns
  obtain ⟨order', requestId', hknown', -, -, hid', hamount, -⟩ := h.pays p hmem
  have heq : paymentOf order.tenantId requestId = paymentOf order'.tenantId requestId' :=
    hid.symm.trans hid'
  simp only [paymentOf, PaymentId.mk.injEq, PaymentRequestId.authorize.injEq] at heq
  obtain ⟨ht, rfl⟩ := heq
  have htotal := h.known_total hknown hknown' ht
  have hasked : order.totalMinor = amount := (hmoney order.total hm).1
  have hnonneg := (h.payment.1.rows p hmem).refunded_nonneg
  have hle' := (h.payment.1.rows p hmem).refunded_le
  omega

/-- The payments after a first-time request. -/
theorem DbInv.actionPays (h : DbInv db) {q : PaymentStore.Request}
    {res : PaymentStore.OperationResult} (hneeds : paymentNeeds q (facts db))
    (hact : PaymentStore.ActionEffect q db res db') :
    ∀ p ∈ db'.payment.payments, Pays (facts db) p := by
  cases hact with
  | @authorize o m mt token order status p hmessage horder hpay htotal hinact hst hp =>
    obtain ⟨known, requestId, hknown, ht, hconcerns, hrid⟩ := hneeds
    rw [hmessage] at hconcerns hrid
    obtain ⟨hoid, hm⟩ := hconcerns
    refine forall_append_singleton h.pays ?_
    subst hp
    refine ⟨known, requestId, hknown, ht, hoid, ?_, ?_, .inl rfl⟩
    · simp only [PaymentStore.newPayment, paymentOf, ht, hrid rfl]
    · simp only [PaymentStore.newPayment, hm]
      rfl
  | @capture p m amount hmessage hmem ht hproof hst hpos hle hmoney =>
    have hall := h.captures_all hneeds hmessage hmem hle hmoney
    refine forall_updateWhere h.pays fun r hr hsel hrow => ?_
    have heq : r = p := h.payment.1.ids.eq_of_mem hr hmem (PaymentStore.isRow_iff.mp hsel).2
    subst heq
    obtain ⟨order, requestId, hknown, ht', ho, hid, ha, -⟩ := hrow
    exact ⟨order, requestId, hknown, ht', ho, hid, ha, .inr hall⟩
  | void =>
    exact forall_updateWhere h.pays fun r _ _ hrow =>
      hrow.update ⟨rfl, rfl, rfl, rfl, rfl, rfl, rfl⟩ rfl
  | refund =>
    exact forall_updateWhere h.pays fun r _ _ hrow =>
      hrow.update ⟨rfl, rfl, rfl, rfl, rfl, rfl, rfl⟩ rfl

theorem DbInv.effectPays (h : DbInv db)
    (hneeds : ∀ q, Q.requests q → paymentNeeds q (facts db))
    (he : PaymentStore.Effect Q db db') : ∀ p ∈ db'.payment.payments, Pays (facts db) p := by
  cases he with
  | refl => exact h.pays
  | refuse => exact h.pays
  | act hq hvalid hnew hact =>
    intro p hp
    exact h.actionPays (hneeds _ hq) hact p hp
  | quarantine =>
    exact forall_updateWhere h.pays fun r _ _ hrow =>
      hrow.update ⟨rfl, rfl, rfl, rfl, rfl, rfl, rfl⟩ rfl
  | resolve =>
    exact forall_updateWhere h.pays fun r _ _ hrow =>
      hrow.update (PaymentStore.sameIdentity_resolve _ _ r) rfl

/-- The ledger row of a first-time request says what the request did. -/
theorem DbInv.actionLedger (h : DbInv db) {q : PaymentStore.Request}
    {res : PaymentStore.OperationResult} (hneeds : paymentNeeds q (facts db))
    (hact : PaymentStore.ActionEffect q db res db') :
    LedgerRow (facts db') (PaymentStore.storedSuccess q res) := by
  cases hact with
  | @authorize o m mt token order status p hmessage horder hpay htotal hinact hst hp hfresh
      hresponse =>
    refine ⟨rfl, ?_, fun r p' amount hr hm => ?_⟩
    · rintro r ⟨⟩ -
      rw [hresponse, hp]
      rfl
    · cases hmessage.symm.trans hm
  | @capture p m amount hmessage hmem ht hproof hst hpos hle hmoney =>
    have hall := h.captures_all hneeds hmessage hmem hle hmoney
    refine ⟨rfl, fun r hr hop => ?_, fun r p' amount' hr hm => ?_⟩
    · simp only [PaymentStore.storedSuccess, hmessage, PaymentStore.operationOf] at hop
      cases hop
    · cases hmessage.symm.trans hm
      exact ⟨_, mem_updateWhere_of_pos hmem (PaymentStore.isRow_iff.mpr ⟨ht, rfl⟩), rfl, hall⟩
  | @void p reason hmessage =>
    refine ⟨rfl, fun r hr hop => ?_, fun r p' amount hr hm => ?_⟩
    · simp only [PaymentStore.storedSuccess, hmessage, PaymentStore.operationOf] at hop
      cases hop
    · cases hmessage.symm.trans hm
  | @refund p m reason hmessage =>
    refine ⟨rfl, fun r hr hop => ?_, fun r p' amount hr hm => ?_⟩
    · simp only [PaymentStore.storedSuccess, hmessage, PaymentStore.operationOf] at hop
      cases hop
    · cases hmessage.symm.trans hm

/-- The payment of an authorize row has the id its request derives. -/
theorem DbInv.authorized_id (h : DbInv db) {p : Payment} {requestId : PaymentRequestId}
    (hop : ∃ o ∈ db.payment.operations, PaymentStore.Authorizes p requestId o) :
    p.id = ⟨p.tenantId, requestId⟩ := by
  obtain ⟨o, ho, ht, hid, hauth, rfl⟩ := hop
  have hrow := h.payment.2.authorizes o ho hauth
  cases hr : o.result with
  | error e =>
    rw [hrow.failed e hr] at hid
    cases hid
  | ok r =>
    have hpay := (hrow.payment r hr).1
    rw [hid, ht] at hpay
    exact Option.some.inj hpay

/-- A refusal says nothing. -/
theorem LedgerRow.refused (K : Set Fact) (q : PaymentStore.Request) (e : PaymentRpcException) :
    LedgerRow K (PaymentStore.storedFailure q e) := by
  refine ⟨rfl, fun r hr => ?_, fun r p amount hr => ?_⟩
  · cases hr
  · cases hr

theorem DbInv.effectLedger (h : DbInv db)
    (hneeds : ∀ q, Q.requests q → paymentNeeds q (facts db))
    (he : PaymentStore.Effect Q db db') :
    ∀ o ∈ db'.payment.operations, LedgerRow (facts db') o := by
  have hfacts := facts_effect h.payment.1 he
  have hold : ∀ o ∈ db.payment.operations, LedgerRow (facts db') o :=
    fun o ho => (h.ledger o ho).mono hfacts
  cases he with
  | refl => exact hold
  | quarantine => exact hold
  | refuse => exact forall_append_singleton hold (LedgerRow.refused _ _ _)
  | @act q res db₁ hq hvalid hnew hact =>
    have hops : db₁.payment.operations = db.payment.operations := by cases hact <;> rfl
    rw [PaymentStore.setOperations_operations, hops]
    exact forall_append_singleton hold
      ((h.actionLedger (hneeds q hq) hact).mono (facts_congr rfl rfl rfl))
  | @resolve p requestId d sel hmem hpending hop =>
    have hid := h.authorized_id hop
    refine forall_updateWhere hold fun o ho hsel hrow => ?_
    simp only [PaymentStore.storesAuthorizeResponse, Bool.and_eq_true, decide_eq_true_eq] at hsel
    refine ⟨hrow.operation, ?_, fun r p' amount hr hm => ?_⟩
    · rintro r ⟨⟩ -
      have hpid : (PaymentStore.resolvedResponse d p).payment.paymentId = p.id := by
        unfold PaymentStore.resolvedResponse
        split <;> rfl
      rw [hpid, hid, ← hsel.1.1, ← hsel.1.2.1]
      rfl
    · have hcap : o.requestFingerprint = .capture p' amount := hm
      have hop := hrow.operation
      rw [hcap, hsel.1.2.2] at hop
      cases hop

theorem DbInv.effectReconciliations (h : DbInv db) (he : PaymentStore.Effect Q db db') :
    ∀ r ∈ db'.checkout.reconciliations, ReconciliationRow (facts db) r := by
  cases he with
  | refl => exact h.reconciliations
  | refuse => exact h.reconciliations
  | quarantine => exact h.reconciliations
  | act hq hvalid hnew hact => cases hact <;> exact h.reconciliations
  | @resolve p requestId d sel hmem hpending hop hd hm hwakes =>
    have hid := h.authorized_id hop
    refine forall_updateWhere h.reconciliations fun r hr hsel hrow => ⟨hrow.order, ?_⟩
    rintro p' ⟨⟩
    obtain ⟨ht, hreq, -, -, hpay⟩ := hwakes r hsel
    have hpid : p.id = paymentOf r.tenantId r.requestId := by rw [hid, hreq, ← ht]; rfl
    show r.paymentId.getD p.id = paymentOf r.tenantId r.requestId
    rcases hpay with hpay | hpay
    · rw [hpay]
      exact hpid
    · rw [hpay]
      exact hpid

/-- Every store transaction on a request that a process may send keeps the
invariant. -/
theorem DbInv.effect (h : DbInv db) (hneeds : ∀ q, Q.requests q → paymentNeeds q (facts db))
    (he : PaymentStore.Effect Q db db') : DbInv db' := by
  have hfacts := facts_effect h.payment.1 he
  obtain ⟨hck, hi, hn, hu⟩ := PaymentEffect.frame he
  exact {
    payment := ⟨h.payment.1.effect he, h.payment.2.effect h.payment.1 he⟩
    fences := h.fences.paymentEffect he
    reservations := hi ▸ h.reservations
    orders := by
      rw [hck]
      exact h.orders
    below := by
      rw [hck, hu]
      exact h.below
    requests := by
      rw [hck]
      exact h.requests
    links := by
      rw [hck]
      exact fun a ha => (h.links a ha).mono hfacts
    tasks := by
      rw [hck]
      exact fun t ht => (h.tasks t ht).mono hfacts
    reconciliations := fun r hr => (h.effectReconciliations he r hr).mono hfacts
    pays := fun p hp => (h.effectPays hneeds he p hp).mono hfacts
    ledger := h.effectLedger hneeds he }

theorem DbInv.effects (h : DbInv db) (hneeds : ∀ q, Q.requests q → paymentNeeds q (facts db))
    (he : PaymentStore.Effects Q db db') : DbInv db' := by
  have hboth := he.invariant (I := fun x => DbInv x ∧ facts db ⊆ facts x) ⟨h, Set.Subset.rfl⟩ ?_
  · exact hboth.1
  · rintro a b ⟨ha, hsub⟩ hstep
    exact ⟨ha.effect (fun q hq => paymentNeeds_mono hsub (hneeds q hq)) hstep,
      hsub.trans (facts_effect ha.payment.1 hstep)⟩

end Effect

/-! ## The other steps -/

/-- A step that leaves checkout and payment alone. -/
theorem DbInv.frame {db db' : Db} (h : DbInv db) (hck : db'.checkout = db.checkout)
    (hp : db'.payment.payments = db.payment.payments)
    (ho : db'.payment.operations = db.payment.operations) (hu : db'.nextUuid = db.nextUuid)
    (hpay : PaymentStore.Consistent db')
    (hres : KeyUnique Inventory.reservationKey db'.inventory.reservations) : DbInv db' := by
  have hfacts : facts db ⊆ facts db' := facts_congr hck hp hu
  exact {
    payment := hpay
    fences := h.fences.frame (by rw [hck]) (by rw [hck]) (by rw [hck]) hu.ge
    reservations := hres
    orders := hck ▸ h.orders
    below := by
      rw [hck, hu]
      exact h.below
    requests := hck ▸ h.requests
    links := by
      rw [hck]
      exact fun a ha => (h.links a ha).mono hfacts
    tasks := by
      rw [hck]
      exact fun t ht => (h.tasks t ht).mono hfacts
    reconciliations := by
      rw [hck]
      exact fun r hr => (h.reconciliations r hr).mono hfacts
    pays := by
      rw [hp]
      exact fun p hp' => (h.pays p hp').mono hfacts
    ledger := by
      rw [ho]
      exact fun o ho' => (h.ledger o ho').mono hfacts }

/-- What a committed step needs to know. -/
def stepNeeds (db : Db) : Checkout.Action → Prop
  | .checkout tx => tx.needs (facts db)
  | .payment (.request q) => paymentNeeds q (facts db)
  | _ => True

/-- Every committed step of a process that knows what it needs keeps the
invariant. -/
theorem DbInv.committed {db db' : Db} {a : Checkout.Action} (h : DbInv db)
    (hneeds : stepNeeds db a) (hc : Committed db a db') : DbInv db' := by
  have hpay := consistent_committed h.payment hc
  have hkeys := (h.keyed.committed hc).reservations
  cases hc with
  | checkout hr => exact (h.changes hneeds (Tx.run_changes hr)).1
  | inventory hK heff =>
    obtain ⟨hck, hp, -, hu⟩ := heff.frame
    exact h.frame hck (by rw [hp]) (by rw [hp]) hu hpay hkeys
  | @payment a db' heff =>
    refine h.effects (fun q hq => ?_) heff
    cases PaymentStore.scope_request hq
    exact hneeds
  | decided hnow hi =>
    obtain ⟨rfl, -, -⟩ := PaymentStore.insertDecision_ok hi
    exact h.frame rfl rfl rfl rfl hpay hkeys
  | elapse => exact h.frame rfl rfl rfl rfl hpay hkeys

end CommercePlayground.System
