/-
CommercePlayground.System.ProcessTheorems — the processes act on facts.

The contract promises a process that the results it gets are possible
(`allows`) and that what they teach is true (`learns`). Both are kept: by a
transaction in the state it commits (`run_result`), by a service in the state
it leaves (`serve_result`), and from then on, since facts stay facts. So in
every reachable state of the system every process still keeps to its contract
with all that holds as its knowledge (`SysInv`), and every transaction it
commits and every call it sends finds what it needs.
-/
import CommercePlayground.System
import CommercePlayground.System.RecordTheorems
import CommercePlayground.Checkout.ContractTheorems
import CommercePlayground.Checkout.FinalizationTheorems

namespace CommercePlayground.System

open Lib Checkout

/-! ## Results of transactions -/

section Results

variable {db db' : Db}

theorem claimCheckoutAttempt_issued {t : TenantId} {r : RequestId} {input : CheckoutInput}
    {token : Nat} (h : claimCheckoutAttempt t r input db = .ok (.new token, db')) :
    token < db'.nextUuid := by
  unfold claimCheckoutAttempt at h
  split at h
  · cases h
    exact Nat.lt_succ_self _
  · split at h
    · cases h
    · split at h
      · split at h
        · unfold claimStaleAttempt at h
          simp only at h
          split at h
          · split at h
            · split at h <;> cases h
            · split at h
              · cases h
              · cases h
                exact Nat.lt_succ_self _
          · cases h
            exact Nat.lt_succ_self _
        · cases h
      · split at h <;> cases h
      · split at h <;> cases h
      · split at h <;> cases h
      · cases h

/-- The link of an attempt writes no order. -/
theorem linkOrder_orders {g : Generation} {id : OrderId} {m : String}
    (h : linkOrder g id m db = .ok db') : db'.checkout.orders = db.checkout.orders := by
  unfold linkOrder at h
  simp only at h
  split at h
  · cases h
    rfl
  · cases h

theorem createPendingOrder_result {input : CheckoutInput} {quote : QuoteResponse}
    {lease : CheckoutLease} {order : PendingOrder}
    (h : createPendingOrder input quote lease db = .ok (order, db')) :
    ∃ o ∈ db'.checkout.orders, order = pendingOrder o input.sessionId ∧
      o.tenantId = input.tenantId ∧ o.checkoutRequestId = lease.requestId := by
  obtain ⟨_, -, h⟩ := bind_ok h
  obtain ⟨_, -, h⟩ := bind_ok h
  split at h
  · rename_i o ho
    obtain ⟨hmem, ht, hr⟩ := orderOfRequest_some ho
    obtain ⟨_, -, h⟩ := bind_ok h
    obtain ⟨db₁, hlink, h⟩ := bind_ok h
    cases h
    exact ⟨o, linkOrder_orders hlink ▸ hmem, rfl, ht, hr⟩
  · obtain ⟨totals, -, h⟩ := bind_ok h
    obtain ⟨⟨⟩, -, h⟩ := bind_ok h
    obtain ⟨lines, -, h⟩ := bind_ok h
    obtain ⟨_, -, h⟩ := bind_ok h
    obtain ⟨_, -, h⟩ := bind_ok h
    obtain ⟨db₃, hlink, h⟩ := bind_ok h
    cases h
    refine ⟨_, ?_, rfl, rfl, rfl⟩
    rw [linkOrder_orders hlink]
    exact List.mem_append_right _ (List.mem_singleton_self _)

theorem loadPendingOrder_result {t : TenantId} {id : OrderId} {order : PendingOrder}
    (h : loadPendingOrder t id db = .ok (order, db')) :
    ∃ o ∈ db.checkout.orders, order = pendingOrder o order.sessionId ∧ o.tenantId = t ∧
      o.id = id := by
  unfold loadPendingOrder at h
  split at h
  · cases h
  · rename_i o ho
    obtain ⟨hmem, hkey⟩ := find?_some_spec ho
    simp only [isOrder, decide_eq_true_eq] at hkey
    split at h
    · cases h
    · cases h
      exact ⟨o, hmem, rfl, hkey⟩

theorem claimCompensationTask_result {pick : Nat} {claimed : Option ClaimedTask}
    {task : ClaimedTask} (h : claimCompensationTask pick db = .ok (claimed, db'))
    (hc : claimed = some task) :
    ∃ t ∈ db.checkout.tasks, task = claimOf db.nextUuid t ∧ db'.checkout.orders =
      db.checkout.orders ∧ claimedTask db.now db.nextUuid t ∈ db'.checkout.tasks := by
  unfold claimCompensationTask at h
  simp only at h
  split at h
  · cases h
    cases hc
  · rename_i t ht
    obtain ⟨hmem, hsel⟩ := find?_some_spec ht
    cases h
    cases hc
    exact ⟨t, hmem, rfl, rfl, mem_updateWhere_of_pos hmem hsel⟩

/-- The payment a lookup finds is a payment of the order. -/
theorem lookupAuthorizationPaymentId_result {order : PendingOrder} {requestId : RequestId}
    {found : Option PaymentId} {id : PaymentId}
    (h : lookupAuthorizationPaymentId order requestId db = .ok (found, db'))
    (hid : found = some id) : ∃ p ∈ db.payment.payments, p.id = id ∧
      p.tenantId = order.tenantId ∧ p.orderId = order.id := by
  unfold lookupAuthorizationPaymentId at h
  simp only at h
  cases h
  rcases Option.or_eq_some_iff.mp hid with hled | ⟨-, hlatest⟩
  · obtain ⟨o, -, ho⟩ := List.exists_of_findSome?_eq_some hled
    split at ho
    · rename_i hkey
      obtain ⟨pid, -, hfind⟩ := Option.bind_eq_some_iff.mp ho
      obtain ⟨p, hp, rfl⟩ := Option.map_eq_some_iff.mp hfind
      obtain ⟨hmem, hsel⟩ := find?_some_spec hp
      simp only [decide_eq_true_eq] at hsel
      exact ⟨p, hmem, rfl, hsel.1.trans hkey.1, hsel.2.2⟩
    · cases ho
  · obtain ⟨p, hp, rfl⟩ := Option.map_eq_some_iff.mp hlatest
    have hmem := List.argmax_mem (show p ∈ List.argmax _ _ from hp)
    obtain ⟨hmem, hsel⟩ := List.mem_filter.mp hmem
    simp only [decide_eq_true_eq] at hsel
    exact ⟨p, hmem, rfl, hsel⟩

theorem finalizationCommitted_result {order : PendingOrder} {b : Bool}
    (h : finalizationCommitted order db = .ok (b, db')) (hb : b = true) :
    Fact.paid order.tenantId order.id ∈ facts db := by
  unfold finalizationCommitted at h
  simp only at h
  split at h
  · cases h
  · rename_i o ho
    obtain ⟨hmem, hkey⟩ := find?_some_spec ho
    simp only [isOrder, decide_eq_true_eq] at hkey
    split at h
    · rename_i hpaid
      exact ⟨o, hmem, hkey.1, hkey.2, hpaid⟩
    · split at h <;> cases h
      cases hb

/-- A finalized order is paid. -/
theorem Finalizes.paid {order : PendingOrder} {paymentId : PaymentId}
    (h : Finalizes order paymentId db db') :
    Fact.paid order.tenantId order.id ∈ facts db' := by
  obtain ⟨o, ho, hsel⟩ := exists_of_affected_ne_zero (by rw [h.one]; decide)
  have hkey : o.tenantId = order.tenantId ∧ o.id = order.id := by
    simp only [isPendingOrder, isOrder, Bool.and_eq_true, decide_eq_true_eq] at hsel
    exact hsel.1
  refine ⟨{ o with status := .paid }, ?_, hkey.1, hkey.2, rfl⟩
  rw [h.orders]
  exact mem_updateWhere_of_pos ho hsel

/-- **What a transaction tells is true.** -/
theorem run_result {tx : Tx} {r : tx.Result} (h : DbInv db) (hneeds : tx.needs (facts db))
    (hr : tx.run db = .ok (r, db')) : tx.allows r ∧ tx.learns r ⊆ facts db' := by
  have hfacts := (h.changes hneeds (Tx.run_changes hr)).2
  cases tx with
  | claimCheckoutAttempt t q input =>
    refine ⟨trivial, ?_⟩
    rintro f ⟨token, hnew, rfl⟩
    cases hnew
    exact claimCheckoutAttempt_issued hr
  | createPendingOrder input quote lease =>
    obtain ⟨o, ho, heq, ht, hreq⟩ := createPendingOrder_result hr
    subst heq
    refine ⟨ht, ?_⟩
    rintro f (rfl | rfl)
    · exact ⟨o, ho, rfl⟩
    · exact ⟨o, ho, rfl, rfl, hreq⟩
  | loadPendingOrder t id =>
    obtain ⟨o, ho, heq, ht, hid⟩ := loadPendingOrder_result hr
    refine ⟨?_, ?_⟩
    · rw [heq]
      exact ⟨ht, hid⟩
    · rintro f rfl
      exact hfacts ⟨o, ho, heq.symm⟩
  | claimPaymentReconciliation pick =>
    rcases claimPaymentReconciliation_cases hr with ⟨rfl, rfl⟩ | ⟨row, hrow, -, hclaim, rfl, -⟩
    · exact ⟨nofun, by rintro f ⟨j, hj, -⟩; cases hj⟩
    · have hrec := h.reconciliations row hrow
      refine ⟨?_, ?_⟩
      · rintro j ⟨⟩ p hp
        exact hrec.payment p hp
      · rintro f ⟨j, ⟨⟩, rfl | rfl⟩
        · exact hfacts hrec.order
        · obtain ⟨a, ha, hgen⟩ := h.fences.reconciliations row hrow (isClaimable_open hclaim)
          have htoken : a.leaseToken = row.checkoutLeaseToken := (isGeneration_iff.mp hgen).2.2
          refine hfacts (show row.checkoutLeaseToken < db.nextUuid from ?_)
          rw [← htoken]
          exact h.fences.tokens a ha
  | claimCompensationTask pick =>
    refine ⟨?_, ?_⟩
    · intro c hc p q hp
      obtain ⟨t, ht, rfl, -⟩ := claimCompensationTask_result hr hc
      exact (h.tasks t ht p q hp).1
    · rintro f ⟨c, hc, rfl | ⟨p, q, hp, rfl⟩⟩
      · obtain ⟨t, ht, rfl, -, hmem⟩ := claimCompensationTask_result hr hc
        exact ⟨_, hmem, rfl, rfl, rfl, rfl⟩
      · obtain ⟨t, ht, rfl, -⟩ := claimCompensationTask_result hr hc
        exact hfacts (h.tasks t ht p q hp).2
  | lookupAuthorizationPaymentId order requestId =>
    refine ⟨?_, Set.empty_subset _⟩
    intro id hid
    obtain ⟨p, hp, rfl, ht, ho⟩ := lookupAuthorizationPaymentId_result hr hid
    have hreq := hneeds.2
    rw [← ht, ← ho] at hreq
    rw [← ht]
    exact h.pays_id hp hreq
  | finalizeOrder order paymentId fence =>
    refine ⟨trivial, ?_⟩
    rintro f rfl
    exact Finalizes.paid (finalizeOrder_ok hr)
  | finalizationCommitted order =>
    refine ⟨trivial, ?_⟩
    rintro f ⟨hb, rfl⟩
    exact hfacts (finalizationCommitted_result hr hb)
  | _ => exact ⟨trivial, Set.empty_subset _⟩

end Results

/-! ## Results of calls -/

/-- A record that shows a compensated payment: nothing of it can be held. -/
theorem DbInv.settled_record {db : Db} (h : DbInv db) {p : Payment}
    (hp : p ∈ db.payment.payments)
    (hs : settledRecord (PaymentStore.toRecord (PaymentStore.paymentRow db p))) :
    PaymentStore.isActive p = false := by
  have hrow := h.payment.1.rows p hp
  obtain ⟨order, requestId, -, -, -, -, -, hcap⟩ := h.pays p hp
  have hcap_le := hrow.captured_le
  have hpos := hrow.positive
  have hstatus : ∀ st, (PaymentStore.toRecord (PaymentStore.paymentRow db p)).status = st →
      st ≠ .pending → p.status = st := by
    intro st hst hne
    simp only [PaymentStore.toRecord, PaymentStore.toPaymentStatus] at hst
    split at hst
    · rename_i hsettled
      split at hst
      · rw [hrow.status_eq hsettled]
        exact hst
      · exact absurd hst.symm hne
    · exact hst
  rcases hs with hv | hf | ⟨hr, heq⟩
  · simp [PaymentStore.isActive, hstatus _ hv (by decide)]
  · simp [PaymentStore.isActive, hstatus _ hf (by decide)]
  · have heq' : p.capturedAmountMinor = p.refundedAmountMinor := heq
    have hst := hrow.status_eq
    rcases hr with hr | hr
    · rw [hstatus _ hr (by decide)] at hst
      have := hst rfl
      unfold PaymentStore.statusForBalances at this
      split at this
      · split at this
        · cases this
        · split at this
          · omega
          · cases this
      · split at this
        · cases this
        · split at this
          · cases this
          · omega
    · rw [hstatus _ hr (by decide)] at hst
      have := hst rfl
      have hfull : p.capturedAmountMinor = p.amountMinor := by
        unfold PaymentStore.statusForBalances at this
        split at this
        · split at this
          · omega
          · split at this <;> cases this
        · omega
      simp [PaymentStore.isActive, hstatus _ hr (by decide), hfull]

theorem serveGetPayment_read {db : Db} {t : TenantId} {id : PaymentId} {record : PaymentRecord}
    (h : (PaymentStore.serveGetPayment t id db).1 = .ok record) :
    ∃ p ∈ (PaymentStore.serveGetPayment t id db).2.payment.payments, p.id = id ∧
      record = PaymentStore.toRecord
        (PaymentStore.paymentRow (PaymentStore.serveGetPayment t id db).2 p) := by
  unfold PaymentStore.serveGetPayment at h ⊢
  cases hex : PaymentStore.getPayment t id db with
  | error e =>
    rw [hex] at h
    cases e <;> cases h
  | ok out =>
    rw [hex] at h
    obtain ⟨result, db'⟩ := out
    have hres : result = .ok record := h
    subst hres
    obtain ⟨⟨n, db₁⟩, -, h₁⟩ := bind_ok hex
    dsimp only at h₁
    cases hf : PaymentStore.findPayment db₁ t id with
    | none =>
      rw [hf] at h₁
      cases h₁
    | some row =>
      rw [hf] at h₁
      cases h₁
      obtain ⟨hmem, -, hid, hrow⟩ := PaymentStore.findPayment_some hf
      exact ⟨row.row, hmem, hid, congrArg PaymentStore.toRecord hrow⟩

/-- What a step does to the database: nothing, or what one committed step of a
process that knows what it needs does. -/
def Moved (db db' : Db) : Prop := db' = db ∨ ∃ a, stepNeeds db a ∧ Committed db a db'

theorem Moved.inv {db db' : Db} (h : DbInv db) (hm : Moved db db') : DbInv db' := by
  rcases hm with rfl | ⟨a, hneeds, hc⟩
  · exact h
  · exact h.committed hneeds hc

theorem Moved.facts {db db' : Db} (h : DbInv db) (hm : Moved db db') :
    System.facts db ⊆ System.facts db' := by
  rcases hm with rfl | ⟨a, -, hc⟩
  · exact Set.Subset.rfl
  · exact facts_committed h.payment.1 hc

/-- A call is served in one committed step, or changes nothing. -/
theorem serve_moved {db : Db} {c : Call} (h : DbInv db) (hneeds : c.needs (facts db)) :
    Moved db (c.serve db).2 := by
  cases c with
  | payment q =>
    exact .inr ⟨.payment (.request q), hneeds,
      .payment (PaymentStore.serve_effect q db).toEffects⟩
  | getPayment t id =>
    exact .inr ⟨.payment (.getPayment t id), trivial,
      .payment (PaymentStore.serveGetPayment_effect t id db).toEffects⟩
  | reserve q =>
    cases hr : Inventory.reserve q db with
    | error e => exact .inl (by simp [Call.serve, hr, Inventory.committed])
    | ok r =>
      refine .inr ⟨.inventory (.reserve q), trivial, committed_of_commit h.keyed ?_⟩
      simp [Checkout.Action.commit, Call.serve, hr, Inventory.committed, committedDb]
  | release q =>
    cases hr : Inventory.release q db with
    | error e => exact .inl (by simp [Call.serve, hr, Inventory.committed])
    | ok r =>
      refine .inr ⟨.inventory (.release q), trivial, committed_of_commit h.keyed ?_⟩
      simp [Checkout.Action.commit, Call.serve, hr, Inventory.committed, committedDb]
  | consume q =>
    cases hr : Inventory.consume q db with
    | error e => exact .inl (by simp [Call.serve, hr, Inventory.committed])
    | ok r =>
      refine .inr ⟨.inventory (.consume q), trivial, committed_of_commit h.keyed ?_⟩
      simp [Checkout.Action.commit, Call.serve, hr, Inventory.committed, committedDb]

/-- The result of a call is possible, and what it teaches holds. -/
def Told (db : Db) (c : Call) (r : c.Result) : Prop := c.allows r ∧ c.learns r ⊆ facts db

theorem Told.mono {db db' : Db} {c : Call} {r : c.Result} (h : Told db c r)
    (hf : facts db ⊆ facts db') : Told db' c r := ⟨h.1, h.2.trans hf⟩

/-- A call without an answer teaches nothing. -/
theorem told_lost (db : Db) (c : Call) (code : GrpcCode) : Told db c (c.lost code) := by
  cases c with
  | payment q =>
    refine ⟨?_, ?_⟩
    · rintro response ⟨⟩
    · rintro f ⟨response, p, amount, ⟨⟩, -⟩
  | getPayment t id =>
    refine ⟨trivial, ?_⟩
    rintro f ⟨record, ⟨⟩, -⟩
  | reserve | release | consume => exact ⟨trivial, Set.empty_subset _⟩

theorem told_refused (db : Db) (c : Call) : Told db c c.refused := by
  cases c with
  | payment q =>
    refine ⟨?_, ?_⟩
    · rintro response ⟨⟩
    · rintro f ⟨response, p, amount, ⟨⟩, -⟩
  | getPayment t id =>
    refine ⟨trivial, ?_⟩
    rintro f ⟨record, ⟨⟩, -⟩
  | reserve | release | consume => exact ⟨trivial, Set.empty_subset _⟩

theorem Told.truncated {db : Db} {c : Call} {r : c.Reply} (h : Told db c (c.received r)) :
    Told db c (c.truncated r) := by
  cases c with
  | payment | getPayment => exact h
  | reserve | release | consume => exact ⟨trivial, Set.empty_subset _⟩

/-- **What a service tells is true.** -/
theorem serve_told {db : Db} {c : Call} (h : DbInv db) (hneeds : c.needs (facts db)) :
    Told (c.serve db).2 c (c.received (c.serve db).1) := by
  have hinv := (serve_moved h hneeds).inv h
  cases c with
  | payment q =>
    -- the response is a row of the ledger, and the row says what happened
    have hrow : ∀ response, (PaymentStore.serve q db).1 = .ok response →
        ∃ o ∈ (PaymentStore.serve q db).2.payment.operations, o.tenantId = q.tenantId ∧
          o.requestId = q.requestId ∧ o.requestFingerprint = q.message ∧
          o.result = .ok response := by
      intro response hr
      obtain ⟨o, ho, ht, hrid, -, hm, hres⟩ := PaymentStore.serve_recorded h.payment hr
      exact ⟨o, ho, ht, hrid, hm, hres⟩
    refine ⟨?_, ?_⟩
    · intro response hr hop
      obtain ⟨o, ho, ht, hrid, hm, hres⟩ := hrow response hr
      have hledger := hinv.ledger o ho
      rw [hledger.authorized response hres (by rw [hledger.operation, hm, hop]), ht, hrid]
    · rintro f ⟨response, p, amount, hr, hmessage, -, rfl⟩
      obtain ⟨o, ho, -, -, hm, hres⟩ := hrow response hr
      exact (hinv.ledger o ho).captured response p amount hres (hm.trans hmessage)
  | getPayment t id =>
    refine ⟨trivial, ?_⟩
    rintro f ⟨record, hr, ⟨⟨-, hcap⟩, rfl⟩ | ⟨hsettled, rfl⟩⟩
    · obtain ⟨p, hp, hid, rfl⟩ := serveGetPayment_read hr
      exact ⟨p, hp, hid, hcap⟩
    · obtain ⟨p, hp, hid, rfl⟩ := serveGetPayment_read hr
      exact ⟨p, hp, hid, hinv.settled_record hp hsettled⟩
  | reserve | release | consume => exact ⟨trivial, Set.empty_subset _⟩

/-! ## The invariant of the system -/

/-- A process keeps to its contract, and waits for the call it made. -/
structure ThreadInv (s : State) (t : Thread) : Prop where
  safe : Safe contract t.work (facts s.db) fun _ _ => True
  waits : ∀ n, t.waiting = some n →
    ∃ c k, t.work = .perform (.call c) k ∧ s.net[n]? = some c

/-- A reply answers a call of the network, truly. -/
def ReplyInv (s : State) (n : Nat) (reply : Reply) : Prop :=
  ∃ c r, s.net[n]? = some c ∧ reply = Reply.of c r ∧ Told s.db c (c.received r)

/-- The invariant of the system. -/
structure SysInv (s : State) : Prop where
  db : DbInv s.db
  net : ∀ c ∈ s.net, c.needs (facts s.db)
  replies : ∀ r ∈ s.replies, ReplyInv s r.1 r.2
  threads : ∀ t ∈ s.threads, ThreadInv s t

theorem ThreadInv.mono {s u : State} {t : Thread} (h : ThreadInv s t)
    (hf : facts s.db ⊆ facts u.db)
    (hnet : ∀ (n : Nat) (c : Call), s.net[n]? = some c → u.net[n]? = some c) : ThreadInv u t := by
  refine ⟨h.safe.mono hf fun _ _ _ _ _ => trivial, fun n hn => ?_⟩
  obtain ⟨c, k, hw, hc⟩ := h.waits n hn
  exact ⟨c, k, hw, hnet n c hc⟩

theorem ReplyInv.mono {s u : State} {n : Nat} {reply : Reply} (h : ReplyInv s n reply)
    (hf : facts s.db ⊆ facts u.db)
    (hnet : ∀ (n : Nat) (c : Call), s.net[n]? = some c → u.net[n]? = some c) :
    ReplyInv u n reply := by
  obtain ⟨c, r, hc, heq, htold⟩ := h
  exact ⟨c, r, hnet n c hc, heq, htold.mono hf⟩

/-- The other processes and the replies do not matter to a process. -/
theorem ThreadInv.frame {s : State} {t : Thread} (h : ThreadInv s t)
    (replies : List (Nat × Reply)) (threads : List Thread) :
    ThreadInv { s with replies := replies, threads := threads } t :=
  h.mono Set.Subset.rfl fun _ _ hc => hc

/-- A step that only moves the database. -/
theorem SysInv.moved {s : State} (h : SysInv s) {db : Db} (hm : Moved s.db db) :
    SysInv { s with db := db } where
  db := hm.inv h.db
  net := fun c hc => Call.needs_mono (hm.facts h.db) (h.net c hc)
  replies := fun r hr => (h.replies r hr).mono (hm.facts h.db) fun _ _ hc => hc
  threads := fun t ht => (h.threads t ht).mono (hm.facts h.db) fun _ _ hc => hc

@[simp] theorem Reply.as_of (c : Call) (r : c.Reply) : (Reply.of c r).as c = some r := by
  cases c <;> rfl

theorem SysInv.replyTo {s : State} (h : SysInv s) {n reply : Nat} {c : Call} {r : c.Reply}
    (hc : s.net[n]? = some c) (hr : s.replyTo n reply c = some r) :
    Told s.db c (c.received r) := by
  unfold State.replyTo at hr
  split at hr
  · rename_i m rep hrep
    split at hr
    · rename_i hn
      subst hn
      obtain ⟨c', r', hc', heq, htold⟩ := h.replies (m, rep) (List.mem_of_getElem? hrep)
      obtain rfl : c' = c := Option.some.inj (hc'.symm.trans hc)
      dsimp only at heq
      rw [heq, Reply.as_of] at hr
      cases hr
      exact htold
    · cases hr
  · cases hr

/-! ## Steps of a process -/

/-- The database moves, and everything else stays. -/
def MovedState (s u : State) : Prop := ∃ db, Moved s.db db ∧ u = { s with db := db }

theorem MovedState.refl (s : State) : MovedState s s := ⟨s.db, .inl rfl, rfl⟩

theorem MovedState.inv {s u : State} (h : SysInv s) (hm : MovedState s u) : SysInv u := by
  obtain ⟨db, hmoved, rfl⟩ := hm
  exact h.moved hmoved

/-- What an effect answers is allowed, and true. -/
def Answered (s : State) (e : Effect) (r : e.Result) : Prop :=
  contract.allows e r ∧ contract.learns e r ⊆ facts s.db

theorem answered_error {s : State} {t : Tx} {e : ApiError} :
    Answered s (.tx t) (.error e) := by
  refine ⟨?_, ?_⟩
  · rintro a ⟨⟩
  · rintro f ⟨a, ⟨⟩, -⟩

theorem SysInv.tx {s : State} (h : SysInv s) {t : Tx} (hneeds : t.needs (facts s.db))
    {r : t.Result} {db : Db} (hr : t.run s.db = .ok (r, db)) :
    MovedState s { s with db := db } ∧ Answered { s with db := db } (.tx t) (.ok r) := by
  obtain ⟨hallows, hlearns⟩ := run_result h.db hneeds hr
  refine ⟨⟨db, .inr ⟨.checkout t, hneeds, .checkout hr⟩, rfl⟩, ?_, ?_⟩
  · rintro a ⟨⟩
    exact hallows
  · rintro f ⟨a, ⟨⟩, hf⟩
    exact hlearns hf

theorem SysInv.txStep {s u : State} (h : SysInv s) {t : Tx} (hneeds : t.needs (facts s.db))
    {choice : Choice} {r : ApiResult t.Result}
    (hs : txStep s t choice = some (.finished u r)) :
    MovedState s u ∧ Answered u (.tx t) r := by
  cases choice with
  | commit =>
    simp only [System.txStep] at hs
    split at hs
    · rename_i a db hr
      cases hs
      exact h.tx hneeds hr
    · cases hs
      exact ⟨.refl s, answered_error⟩
  | fault f =>
    cases hs
    exact ⟨.refl s, answered_error⟩
  | commitLost =>
    simp only [System.txStep] at hs
    split at hs
    · rename_i a db hr
      cases hs
      exact ⟨(h.tx hneeds hr).1, answered_error⟩
    · cases hs
  | send | unreachable | receive | truncate | lose | outage | catalog | pricing | go => cases hs

theorem txStep_sent {s u : State} {t : Tx} {choice : Choice} {n : Nat} :
    txStep s t choice ≠ some (.sent u n) := by
  intro hs
  cases choice with
  | commit =>
    simp only [System.txStep] at hs
    split at hs <;> cases hs
  | commitLost =>
    simp only [System.txStep] at hs
    split at hs <;> cases hs
  | fault | send | unreachable | receive | truncate | lose | outage | catalog | pricing | go =>
    cases hs

/-- A call that ends: nothing changed, and the result is true. -/
theorem SysInv.callStep {s u : State} (h : SysInv s) {c : Call} {waiting : Option Nat}
    (hwaits : ∀ n, waiting = some n → s.net[n]? = some c) {choice : Choice} {r : c.Result}
    (hs : callStep s c waiting choice = some (.finished u r)) : u = s ∧ Told s.db c r := by
  cases waiting with
  | none =>
    cases choice with
    | unreachable =>
      cases hs
      exact ⟨rfl, told_lost _ _ _⟩
    | commit | fault | commitLost | send | receive | truncate | lose | outage | catalog | pricing
    | go => cases hs
  | some n =>
    have hc := hwaits n rfl
    cases choice with
    | receive reply =>
      obtain ⟨a, ha, heq⟩ := Option.map_eq_some_iff.mp hs
      cases heq
      exact ⟨rfl, h.replyTo hc ha⟩
    | truncate reply =>
      obtain ⟨a, ha, heq⟩ := Option.map_eq_some_iff.mp hs
      cases heq
      exact ⟨rfl, (h.replyTo hc ha).truncated⟩
    | lose code =>
      simp only [System.callStep] at hs
      split at hs
      · cases hs
      · cases hs
        exact ⟨rfl, told_lost _ _ _⟩
    | outage =>
      cases hs
      exact ⟨rfl, told_refused _ _⟩
    | commit | fault | commitLost | send | unreachable | catalog | pricing | go => cases hs

theorem callStep_sent {s u : State} {c : Call} {waiting : Option Nat} {choice : Choice} {n : Nat}
    (hs : callStep s c waiting choice = some (.sent u n)) :
    u = { s with net := s.net ++ [c] } ∧ n = s.net.length := by
  cases waiting with
  | none =>
    cases choice with
    | send =>
      cases hs
      exact ⟨rfl, rfl⟩
    | commit | fault | commitLost | unreachable | receive | truncate | lose | outage | catalog
    | pricing | go => cases hs
  | some m =>
    cases choice with
    | receive reply =>
      obtain ⟨a, ha, heq⟩ := Option.map_eq_some_iff.mp hs
      cases heq
    | truncate reply =>
      obtain ⟨a, ha, heq⟩ := Option.map_eq_some_iff.mp hs
      cases heq
    | lose code =>
      simp only [System.callStep] at hs
      split at hs <;> cases hs
    | outage | commit | fault | commitLost | send | unreachable | catalog | pricing | go =>
      cases hs

/-- What one effect of a process does. -/
theorem SysInv.effectStep {s : State} (h : SysInv s) {e : Effect} {waiting : Option Nat}
    (hneeds : contract.needs e (facts s.db))
    (hwaits : ∀ n c, waiting = some n → e = .call c → s.net[n]? = some c) {choice : Choice}
    {p : Progress e} (hs : effectStep s waiting choice e = some p) :
    (∃ u r, p = .finished u r ∧ MovedState s u ∧ Answered u e r) ∨
      ∃ c, e = .call c ∧ p = .sent { s with net := s.net ++ [c] } s.net.length := by
  have hidle : ∀ {r : e.Result}, contract.allows e r → contract.learns e r = ∅ →
      MovedState s s ∧ Answered s e r :=
    fun ha hl => ⟨.refl s, ha, by rw [hl]; exact Set.empty_subset _⟩
  cases e with
  | tx t =>
    cases p with
    | finished u r => exact .inl ⟨u, r, rfl, h.txStep hneeds hs⟩
    | sent u n => exact absurd hs txStep_sent
  | call c =>
    cases p with
    | finished u r =>
      obtain ⟨rfl, htold⟩ := h.callStep (fun n hn => hwaits n c hn rfl) hs
      exact .inl ⟨u, r, rfl, .refl _, htold⟩
    | sent u n =>
      obtain ⟨rfl, rfl⟩ := callStep_sent hs
      exact .inr ⟨c, rfl, rfl⟩
  | catalog input =>
    cases choice with
    | catalog r =>
      cases hs
      exact .inl ⟨s, r, rfl, hidle trivial rfl⟩
    | _ => cases hs
  | pricing input =>
    cases choice with
    | pricing r =>
      cases hs
      exact .inl ⟨s, r, rfl, hidle trivial rfl⟩
    | _ => cases hs
  | startHeartbeat fence =>
    cases choice with
    | go =>
      cases hs
      exact .inl ⟨s, (), rfl, hidle trivial rfl⟩
    | _ => cases hs
  | stopHeartbeat =>
    cases choice with
    | go =>
      cases hs
      exact .inl ⟨s, (), rfl, hidle trivial rfl⟩
    | _ => cases hs

/-- A process that went on keeps to its contract. -/
theorem SysInv.threadStep {s u : State} {t t' : Thread} {choice : Choice} (h : SysInv s)
    (ht : ThreadInv s t) (hs : t.step s choice = some (u, t')) :
    SysInv { u with threads := s.threads } ∧ ThreadInv u t' ∧ Moved s.db u.db ∧
      (∀ x ∈ s.threads, ThreadInv u x) := by
  unfold Thread.step at hs
  split at hs
  · cases hs
  · rename_i e k hwork
    have hsafe := ht.safe
    rw [hwork] at hsafe
    have hwaits : ∀ n c, t.waiting = some n → e = .call c → s.net[n]? = some c := by
      intro n c hn hc
      obtain ⟨c', k', hw, hnet⟩ := ht.waits n hn
      subst hc
      rw [hwork] at hw
      cases hw
      exact hnet
    cases hstep : System.effectStep s t.waiting choice e with
    | none =>
      rw [hstep] at hs
      cases hs
    | some p =>
      rw [hstep] at hs
      rcases h.effectStep hsafe.1 hwaits hstep with ⟨v, r, rfl, hmoved, hans⟩ | ⟨c, rfl, rfl⟩
      · cases hs
        obtain ⟨db, hm, rfl⟩ := hmoved
        have hinv := h.moved hm
        refine ⟨hinv, ⟨?_, nofun⟩, hm, hinv.threads⟩
        refine (hsafe.2 r hans.1).mono ?_ fun _ _ _ _ _ => trivial
        exact Set.union_subset (hm.facts h.db) hans.2
      · cases hs
        have hkeep : ∀ (n : Nat) (c' : Call), s.net[n]? = some c' →
            (s.net ++ [c])[n]? = some c' := by
          intro n c' hc'
          rw [List.getElem?_append_left (List.getElem?_eq_some_iff.mp hc').1]
          exact hc'
        have hthreads : ∀ x ∈ s.threads, ThreadInv { s with net := s.net ++ [c] } x :=
          fun x hx => (h.threads x hx).mono Set.Subset.rfl hkeep
        refine ⟨⟨h.db, ?_, fun r hr => (h.replies r hr).mono Set.Subset.rfl hkeep, hthreads⟩,
          ⟨ht.safe, fun n hn => ?_⟩, .inl rfl, hthreads⟩
        · intro c' hc'
          rcases List.mem_append.mp hc' with hc' | hc'
          · exact h.net c' hc'
          · rw [List.mem_singleton.mp hc']
            exact hsafe.1
        · cases hn
          exact ⟨c, k, hwork, by simp⟩

/-! ## Steps of the system -/

theorem workOf_safe {α : Type} {K : Set Fact} {flow : Flow α} (h : Sound contract flow K) :
    Safe contract (workOf flow) K fun _ _ => True :=
  Safe.bind h fun _ _ _ _ => trivial

/-- Every process starts within its contract. -/
theorem Process.safe (p : Process) (K : Set Fact) :
    Safe contract p.work K fun _ _ => True := by
  cases p with
  | checkout input => exact workOf_safe checkoutInner_sound
  | reconciliation pick => exact workOf_safe processOnePaymentReconciliation_sound
  | compensation expired pick => exact workOf_safe processOneCompensation_sound

theorem beat_moved (db : Db) (fence : CheckoutFence) : Moved db (beat db fence) := by
  unfold beat
  split
  · rename_i u db' hr
    exact .inr ⟨.checkout (.refreshCheckoutFence fence), trivial, .checkout hr⟩
  · exact .inl rfl

theorem decided_moved {db : Db} {d : ProviderDecision} (hnow : d.verifiedAt ≤ db.now) :
    Moved db (decided db d) := by
  unfold decided
  split
  · rename_i db' hi
    exact .inr ⟨.payment (.decide d), trivial, .decided hnow hi⟩
  · exact .inl rfl

theorem reconcilePayments_moved {db : Db} (h : DbInv db) (n : Nat)
    (keys : List (TenantId × PaymentId)) :
    Moved db (PaymentStore.committed db (PaymentStore.reconcilePendingPayments n keys db)) := by
  exact .inr ⟨.payment (.reconcile n keys), trivial, committed_of_commit h.keyed rfl⟩

theorem reap_moved {db : Db} (h : DbInv db) (visible : Reservation → Bool) :
    Moved db (Inventory.committed db (Inventory.reapExpiredReservations visible db)) := by
  cases hr : Inventory.reapExpiredReservations visible db with
  | error e => exact .inl rfl
  | ok r =>
    refine .inr ⟨.inventory (.reap visible), trivial, committed_of_commit h.keyed ?_⟩
    simp [Checkout.Action.commit, hr, Inventory.committed, committedDb]

/-- **The invariant is kept**, and the database moves by at most one committed
step of a process that knows what it needs. -/
theorem SysInv.step {s u : State} {a : Action} (h : SysInv s) (hs : System.step s a = some u) :
    SysInv u ∧ Moved s.db u.db := by
  cases a with
  | spawn p =>
    cases hs
    refine ⟨⟨h.db, h.net, h.replies, ?_⟩, .inl rfl⟩
    exact forall_append_singleton (fun t ht => (h.threads t ht).frame _ _) ⟨p.safe _, nofun⟩
  | run i choice =>
    simp only [System.step] at hs
    split at hs
    · cases hs
    · rename_i t ht
      split at hs
      · cases hs
      · rename_i v t' hstep
        cases hs
        obtain ⟨hinv, ht', hm, hthreads⟩ :=
          h.threadStep (h.threads t (List.mem_of_getElem? ht)) hstep
        refine ⟨⟨hinv.db, hinv.net, hinv.replies, fun x hx => ?_⟩, hm⟩
        rcases List.mem_or_eq_of_mem_set hx with hx | rfl
        · exact (hthreads x hx).frame _ _
        · exact ht'.frame _ _
  | crash i =>
    cases hs
    refine ⟨⟨h.db, h.net, h.replies, fun x hx => ?_⟩, .inl rfl⟩
    rcases List.mem_or_eq_of_mem_set hx with hx | rfl
    · exact (h.threads x hx).frame _ _
    · exact ⟨trivial, nofun⟩
  | heartbeat i fence =>
    simp only [System.step] at hs
    split at hs
    · cases hs
    · split at hs
      · cases hs
        exact ⟨h.moved (beat_moved _ _), beat_moved _ _⟩
      · cases hs
  | deliver n =>
    simp only [System.step] at hs
    split at hs
    · cases hs
    · rename_i c hc
      cases hs
      have hneeds := h.net c (List.mem_of_getElem? hc)
      have hm := serve_moved h.db hneeds
      have hinv := h.moved hm
      refine ⟨⟨hinv.db, hinv.net, ?_, fun t ht => (hinv.threads t ht).frame _ _⟩, hm⟩
      exact forall_append_singleton (fun r hr => hinv.replies r hr)
        ⟨c, (c.serve s.db).1, hc, rfl, serve_told h.db hneeds⟩
  | elapse time =>
    cases hs
    have hm : Moved s.db { s.db with now := s.db.now + time } :=
      .inr ⟨.elapse time, trivial, .elapse⟩
    exact ⟨h.moved hm, hm⟩
  | reconcilePayments n keys =>
    cases hs
    exact ⟨h.moved (reconcilePayments_moved h.db n keys), reconcilePayments_moved h.db n keys⟩
  | decide d =>
    simp only [System.step] at hs
    split at hs
    · rename_i hnow
      cases hs
      exact ⟨h.moved (decided_moved hnow), decided_moved hnow⟩
    · cases hs
  | reap visible =>
    cases hs
    exact ⟨h.moved (reap_moved h.db visible), reap_moved h.db visible⟩

theorem DbInv.initial {s : State} (h : Initial s) : DbInv s.db := by
  have hpayment : PaymentStore.Initial s.db := ⟨h.payments, h.operations, h.decisions⟩
  exact {
    payment := ⟨.of_initial hpayment, .of_initial hpayment⟩
    fences := (MachineInv.initial (s := ⟨s.db, []⟩)
      ⟨h.attempts, h.tasks, h.reconciliations, h.payments, h.reservations, rfl⟩).fences
    reservations := by
      rw [h.reservations]
      exact KeyUnique.nil _
    orders := by
      rw [h.orders]
      exact KeyUnique.nil _
    below := by simp [h.orders]
    requests := by
      rw [h.orders]
      exact KeyUnique.nil _
    links := by simp [h.attempts]
    tasks := by simp [h.tasks]
    reconciliations := by simp [h.reconciliations]
    pays := by simp [h.payments]
    ledger := by simp [h.operations] }

theorem SysInv.initial {s : State} (h : Initial s) : SysInv s :=
  ⟨DbInv.initial h, by simp [h.net], by simp [h.replies], by simp [h.threads]⟩

/-- Every reachable state satisfies the invariant. -/
theorem SysInv.reach {s₀ s : State} {ok : State → Action → Prop} (h0 : Initial s₀)
    (h : Reach System.step ok s₀ s) : SysInv s :=
  h.invariant (SysInv.initial h0) fun _ _ _ ht _ hs => (ht.step hs).1

end CommercePlayground.System
