/-
CommercePlayground.Checkout.ConvergenceTheorems — the compensation loop reaches
a payment that holds nothing.

The invariant is the phase of the order's payment together with the requests
that cannot have been sent, or recorded, yet: a void is sent only for an
authorized payment, so a void recorded as failed means that the payment is
captured; a refund is sent only for a captured one, so it cannot fail at all.
That is why no recorded failure is replayed where a fresh action is needed.

* `OrderInv.step`: the invariant of the desk.
* `compensation_converges`: whatever the capture in flight does, the loop ends
  with a confirmed compensation.
-/
import CommercePlayground.Checkout.Compensation
import CommercePlayground.Checkout.CompensationTheorems
import CommercePlayground.Payment.ProgressTheorems

namespace CommercePlayground.Checkout

open Lib PaymentStore

variable {order : PendingOrder} {requestId : RequestId}

/-! ## The invariant -/

/-- The requests that checkout sends for an order. -/
inductive OrderRequest (order : PendingOrder) (requestId : RequestId) : Request → Prop where
  | authorize (method : PaymentMethodType) (token : PaymentToken) :
      OrderRequest order requestId (authorizeRequest order requestId method token)
  | capture : OrderRequest order requestId (captureRequest order requestId)
  | void : OrderRequest order requestId (voidRequest order requestId)
  | refund : OrderRequest order requestId (refundRequest order requestId order.totalMinor)

/-- No request with this id was sent. -/
def Unsent (id : PaymentRequestId) (sent : List Request) : Prop := ∀ q ∈ sent, q.requestId ≠ id

/-- No request with this id is in the ledger. -/
def Unrecorded (id : PaymentRequestId) (operations : List StoredOperation) : Prop :=
  ∀ o ∈ operations, o.requestId ≠ id

/-- The phases of an order's payment, and what cannot have happened yet. -/
inductive Phase (order : PendingOrder) (requestId : RequestId) (sent : List Request)
    (operations : List StoredOperation) (payments : List Payment) : Prop where
  | absent (hrow : payments = []) (hvoid : Unsent (.void requestId) sent)
      (hrefund : Unsent (.refund requestId order.totalMinor) sent)
  | waiting {p : Payment} (hrow : payments = [p])
      (hstatus : p.status = .pending ∨ p.status = .failed)
      (hvoid : Unsent (.void requestId) sent)
      (hrefund : Unsent (.refund requestId order.totalMinor) sent)
  | authorized {p : Payment} (hrow : payments = [p]) (hstatus : p.status = .authorized)
      (hzero : p.capturedAmountMinor = 0) (hvoid : Unrecorded (.void requestId) operations)
      (hrefund : Unsent (.refund requestId order.totalMinor) sent)
  | captured {p : Payment} (hrow : payments = [p]) (hstatus : p.status = .captured)
      (hfull : p.capturedAmountMinor = p.amountMinor) (hkept : p.refundedAmountMinor = 0)
      (hrefund : Unrecorded (.refund requestId order.totalMinor) operations)
  | voided {p : Payment} (hrow : payments = [p]) (hstatus : p.status = .voided)
      (hrefund : Unsent (.refund requestId order.totalMinor) sent)
  | refunded {p : Payment} (hrow : payments = [p]) (hstatus : p.status = .refunded)
      (hfull : p.capturedAmountMinor = p.amountMinor)
      (hback : p.refundedAmountMinor = p.amountMinor)

/-- The payment of the order. -/
structure Owns (order : PendingOrder) (requestId : RequestId) (p : Payment) : Prop where
  id : p.id = orderPayment order requestId
  tenantId : p.tenantId = order.tenantId
  orderId : p.orderId = order.id
  currency : p.currency = order.currency
  amountMinor : p.amountMinor = order.totalMinor

theorem Owns.congr {p p' : Payment} (h : Owns order requestId p) (hs : SameIdentity p p') :
    Owns order requestId p' :=
  ⟨hs.id.trans h.id, hs.tenantId.trans h.tenantId, hs.orderId.trans h.orderId,
    hs.currency.trans h.currency, hs.amountMinor.trans h.amountMinor⟩

/-- What holds of the desk at any time. -/
structure OrderInv (order : PendingOrder) (requestId : RequestId) (s : Desk) : Prop where
  store : StoreInv s.db
  shape : ∀ q ∈ s.sent, OrderRequest order requestId q
  rows : ∀ o ∈ s.db.payment.operations, ∃ q ∈ s.sent, q.requestId = o.requestId
  own : ∀ p ∈ s.db.payment.payments, Owns order requestId p
  phase : Phase order requestId s.sent s.db.payment.operations s.db.payment.payments

variable {s : Desk}

/-- What was not sent is not in the ledger. -/
theorem OrderInv.unrecorded {id : PaymentRequestId} (h : OrderInv order requestId s)
    (hid : Unsent id s.sent) : Unrecorded id s.db.payment.operations := by
  intro o ho heq
  obtain ⟨q, hq, hqo⟩ := h.rows o ho
  exact hid q hq (hqo.trans heq)

theorem Unrecorded.not_stored {id : PaymentRequestId} {db : Db} (t : TenantId)
    (h : Unrecorded id db.payment.operations) : findStoredOperation db t id = none := by
  unfold findStoredOperation
  rw [List.find?_eq_none]
  intro o ho
  simpa using fun _ => h o ho

theorem Unrecorded.append {id : PaymentRequestId} {operations : List StoredOperation}
    {o : StoredOperation} (h : Unrecorded id operations) (ho : o.requestId ≠ id) :
    Unrecorded id (operations ++ [o]) :=
  forall_append_singleton h ho

theorem Unsent.cons {id : PaymentRequestId} {sent : List Request} {q : Request}
    (h : Unsent id sent) (hq : q.requestId ≠ id) : Unsent id (q :: sent) :=
  List.forall_mem_cons.mpr ⟨hq, h⟩

/-- A table of one row after an update. -/
theorem updateWhere_one {sel : Payment → Bool} {f : Payment → Payment} {p : Payment}
    (h : sel p = true) : updateWhere sel f [p] = [f p] := by
  simp [updateWhere, h]

/-- A pending payment is the order's own, and nothing was sent to undo it. -/
theorem OrderInv.waiting {p : Payment} (h : OrderInv order requestId s)
    (hmem : p ∈ s.db.payment.payments) (hpending : p.status = .pending) :
    s.db.payment.payments = [p] ∧ Unsent (.void requestId) s.sent ∧
      Unsent (.refund requestId order.totalMinor) s.sent := by
  cases h.phase with
  | absent hrow => simp [hrow] at hmem
  | waiting hrow hstatus hvoid hrefund =>
    rw [hrow, List.mem_singleton] at hmem
    subst hmem
    exact ⟨hrow, hvoid, hrefund⟩
  | authorized hrow hstatus | captured hrow hstatus | voided hrow hstatus
  | refunded hrow hstatus =>
    rw [hrow, List.mem_singleton] at hmem
    subst hmem
    rw [hstatus] at hpending
    cases hpending

/-- The owner of a rewritten row. -/
theorem OrderInv.own_update {p : Payment} {sel : Payment → Bool} {f : Payment → Payment}
    (h : OrderInv order requestId s) (hrow : s.db.payment.payments = [p]) (hsel : sel p = true)
    (hsame : SameIdentity p (f p)) :
    ∀ r ∈ updateWhere sel f s.db.payment.payments, Owns order requestId r := by
  rw [hrow, updateWhere_one hsel]
  intro r hr
  rw [List.mem_singleton.mp hr]
  exact (h.own p (by simp [hrow])).congr hsame

/-- The work of the payment service on its own keeps the invariant. -/
theorem OrderInv.passive {db' : Db} (h : OrderInv order requestId s)
    (he : PaymentStore.Effect .passive s.db db') : OrderInv order requestId ⟨db', s.sent⟩ := by
  have hstore : StoreInv db' := h.store.effect he
  cases he with
  | refl => exact h
  | act hq => exact hq.elim
  | refuse hq => exact hq.elim
  | @quarantine p hmem hpending =>
    obtain ⟨hrow, hvoid, hrefund⟩ := h.waiting hmem hpending
    have hsel : isPendingRow p.tenantId p.id p = true := isPendingRow_iff.mpr ⟨rfl, rfl, hpending⟩
    refine ⟨hstore, h.shape, h.rows,
      h.own_update hrow hsel ⟨rfl, rfl, rfl, rfl, rfl, rfl, rfl⟩, ?_⟩
    exact .waiting (p := PaymentStore.quarantine p)
      (by simp only [setPayments_payments, hrow, updateWhere_one hsel]) (.inl hpending) hvoid
      hrefund
  | @resolve p authorizeId d sel hmem hpending =>
    obtain ⟨hrow, hvoid, hrefund⟩ := h.waiting hmem hpending
    have hsel : isPendingRow p.tenantId p.id p = true := isPendingRow_iff.mpr ⟨rfl, rfl, hpending⟩
    have hzero : p.capturedAmountMinor = 0 :=
      (h.store.rows p hmem).uncaptured (by simp [hpending, settledStatus])
    -- the rewritten response keeps its request id
    have hops : ∀ o ∈ updateWhere (storesAuthorizeResponse p.tenantId authorizeId)
        (resolveOperation d p p.amountMinor) s.db.payment.operations,
        ∃ o' ∈ s.db.payment.operations, o'.requestId = o.requestId := by
      intro o ho
      obtain ⟨o', ho', rfl⟩ := mem_updateWhere.mp ho
      refine ⟨o', ho', ?_⟩
      split <;> rfl
    have hnew : updateWhere (isPendingRow p.tenantId p.id) (resolvePayment s.db.now d)
        s.db.payment.payments = [resolvePayment s.db.now d p] := by
      rw [hrow, updateWhere_one hsel]
    refine ⟨hstore, h.shape, ?_, h.own_update hrow hsel (sameIdentity_resolve _ _ _), ?_⟩
    · intro o ho
      obtain ⟨o', ho', heq⟩ := hops o ho
      obtain ⟨q, hq, hqo⟩ := h.rows o' ho'
      exact ⟨q, hq, hqo.trans heq⟩
    · cases hout : d.outcome with
      | authorized =>
        refine .authorized hnew (by simp [resolvePayment, hout]) hzero ?_ hrefund
        intro o ho heq
        obtain ⟨o', ho', heq'⟩ := hops o ho
        exact h.unrecorded hvoid o' ho' (heq'.trans heq)
      | failed => exact .waiting hnew (.inr (by simp [resolvePayment, hout])) hvoid hrefund

/-- The ledger after a request of the order was recorded. -/
theorem OrderInv.rows_append {q : Request} {o : StoredOperation} (h : OrderInv order requestId s)
    (hq : q ∈ s.sent) (ho : o.requestId = q.requestId) :
    ∀ r ∈ s.db.payment.operations ++ [o], ∃ q ∈ s.sent, q.requestId = r.requestId :=
  forall_append_singleton h.rows ⟨q, hq, ho.symm⟩

/-- The phase of the payment a capture, a void or a refund works on. -/
theorem OrderInv.row_of_mem {p : Payment} (h : OrderInv order requestId s)
    (hmem : p ∈ s.db.payment.payments) : s.db.payment.payments = [p] := by
  cases h.phase with
  | absent hrow => simp [hrow] at hmem
  | waiting hrow | authorized hrow | captured hrow | voided hrow | refunded hrow =>
    rw [hrow, List.mem_singleton] at hmem
    rw [hrow, hmem]

/-- A first-time request that is carried out keeps the invariant. -/
theorem OrderInv.act {q : Request} {res : OperationResult} {db₁ : Db}
    (h : OrderInv order requestId s) (hq : q ∈ s.sent) (hvalid : validate q = none)
    (hnew : findStoredOperation s.db q.tenantId q.requestId = none)
    (hact : ActionEffect q s.db res db₁) :
    OrderInv order requestId
      ⟨setOperations db₁ (db₁.payment.operations ++ [storedSuccess q res]), s.sent⟩ := by
  have hstore : StoreInv (setOperations db₁ (db₁.payment.operations ++ [storedSuccess q res])) :=
    h.store.effect (Q := ⟨fun q' => q' = q, fun _ _ => false⟩) (.act rfl hvalid hnew hact)
  have hshape := h.shape q hq
  cases hact with
  | @authorize o m method token stored status p hmessage horder hpayable htotal hinactive hstatus
      hp hfresh =>
    cases hshape with
    | capture | void | refund => cases hmessage
    | authorize method token =>
      cases hmessage
      have hid : p.id = orderPayment order requestId := by rw [hp]; rfl
      -- the id of the new payment is the order's, so there was no payment
      have hnone : s.db.payment.payments = [] := by
        refine List.eq_nil_iff_forall_not_mem.mpr fun r hr => ?_
        exact hfresh r hr ((h.own r hr).id.trans hid.symm)
      have hown : Owns order requestId p := by
        rw [hp]
        exact ⟨rfl, rfl, rfl, rfl, rfl⟩
      refine ⟨hstore, h.shape, h.rows_append hq rfl, ?_, ?_⟩
      · simp only [setOperations_payments, setDecisions_payments, setPayments_payments, hnone,
          List.nil_append, List.mem_singleton, forall_eq]
        exact hown
      · have hrow : s.db.payment.payments ++ [p] = [p] := by simp [hnone]
        cases h.phase with
        | absent _ hvoid hrefund =>
          have hst : p.status = status := by rw [hp]; rfl
          cases status with
          | authorized =>
            refine .authorized hrow hst (by rw [hp]; rfl) ?_ hrefund
            exact (h.unrecorded hvoid).append (by simp [storedSuccess, authorizeRequest])
          | pending => exact .waiting hrow (.inl hst) hvoid hrefund
          | failed => exact .waiting hrow (.inr hst) hvoid hrefund
          | captured | partiallyRefunded | refunded | voided =>
            cases token <;> cases hstatus
        | waiting hr | authorized hr | captured hr | voided hr | refunded hr =>
          rw [hnone] at hr
          cases hr
  | @capture p m amount hmessage hmem htenant hproof hstatus hpos hle hmoney =>
    cases hshape with
    | authorize | void | refund => cases hmessage
    | capture =>
      obtain ⟨-, rfl⟩ := PaymentMessage.capture.inj hmessage
      have hrow := h.row_of_mem hmem
      have hrowinv := h.store.rows p hmem
      have hsel : isRow order.tenantId p.id p = true := isRow_iff.mpr ⟨htenant, rfl⟩
      have hamount : amount = p.amountMinor := by
        rw [(h.own p hmem).amountMinor]
        exact ((hmoney _ rfl).1).symm
      have hrefunded : p.refundedAmountMinor = 0 := by
        have := hrowinv.refunded_le
        have := hrowinv.refunded_nonneg
        have := hrowinv.captured_le
        omega
      have hcaptured : p.capturedAmountMinor = 0 := by
        have := hrowinv.refunded_le
        have := hrowinv.refunded_nonneg
        omega
      refine ⟨hstore, h.shape, h.rows_append hq rfl,
        h.own_update hrow hsel ⟨rfl, rfl, rfl, rfl, rfl, rfl, rfl⟩, ?_⟩
      have hnewrow : updateWhere (isRow order.tenantId p.id)
          (applyCapture s.db.now (p.capturedAmountMinor + amount)) s.db.payment.payments =
          [applyCapture s.db.now (p.capturedAmountMinor + amount) p] := by
        rw [hrow, updateWhere_one hsel]
      have hunrecorded : Unrecorded (.refund requestId order.totalMinor)
          s.db.payment.operations := by
        cases h.phase with
        | absent _ _ hrefund | waiting _ _ _ hrefund | authorized _ _ _ _ hrefund
        | voided _ _ hrefund => exact h.unrecorded hrefund
        | captured hr hst hfull | refunded hr hst hfull =>
          rw [hrow] at hr
          cases hr
          omega
      refine .captured hnewrow ?_ ?_ hrefunded
        (hunrecorded.append (by simp [storedSuccess, captureRequest]))
      · simp [applyCapture, statusForBalances, hcaptured, hamount, hrefunded]
      · simp [applyCapture, hcaptured, hamount]
  | @void p reason hmessage hmem htenant hproof hstatus hzero =>
    cases hshape with
    | authorize | capture | refund => cases hmessage
    | void =>
      have hrow := h.row_of_mem hmem
      have hsel : isRow order.tenantId p.id p = true := isRow_iff.mpr ⟨htenant, rfl⟩
      refine ⟨hstore, h.shape, h.rows_append hq rfl,
        h.own_update hrow hsel ⟨rfl, rfl, rfl, rfl, rfl, rfl, rfl⟩, ?_⟩
      have hnewrow : updateWhere (isRow order.tenantId p.id) applyVoid s.db.payment.payments =
          [applyVoid p] := by
        rw [hrow, updateWhere_one hsel]
      cases h.phase with
      | authorized hr hst hz hvoid hrefund => exact .voided hnewrow rfl hrefund
      | absent hr => simp [hr] at hmem
      | waiting hr hst | captured hr hst | voided hr hst | refunded hr hst =>
        rw [hrow] at hr
        cases hr
        simp [hstatus] at hst
  | @refund p m reason hmessage hmem htenant hproof hstatus hpos hle =>
    cases hshape with
    | authorize | capture | void => cases hmessage
    | refund =>
      obtain ⟨-, rfl, -⟩ := PaymentMessage.refund.inj hmessage
      have hrow := h.row_of_mem hmem
      have hrowinv := h.store.rows p hmem
      have hamount := (h.own p hmem).amountMinor
      have hsel : isRow order.tenantId p.id p = true := isRow_iff.mpr ⟨htenant, rfl⟩
      have hfull : p.capturedAmountMinor = p.amountMinor ∧ p.refundedAmountMinor = 0 := by
        have := hrowinv.captured_le
        have := hrowinv.refunded_nonneg
        dsimp only at hle
        omega
      refine ⟨hstore, h.shape, h.rows_append hq rfl,
        h.own_update hrow hsel ⟨rfl, rfl, rfl, rfl, rfl, rfl, rfl⟩, ?_⟩
      have hback : p.refundedAmountMinor + order.totalMinor = p.amountMinor := by omega
      have hnewrow : updateWhere (isRow order.tenantId p.id)
          (applyRefund (p.refundedAmountMinor + order.totalMinor)) s.db.payment.payments =
          [applyRefund (p.refundedAmountMinor + order.totalMinor) p] := by
        rw [hrow, updateWhere_one hsel]
      refine .refunded hnewrow ?_ hfull.1 hback
      have hpositive := hrowinv.positive
      simp [applyRefund, hback, hfull.1, statusForBalances, hpositive.ne']

/-- An authorized payment is never refused its void. -/
theorem OrderInv.void_ok {p : Payment} (h : OrderInv order requestId s)
    (hmem : p ∈ s.db.payment.payments) (hstatus : p.status = .authorized)
    (hzero : p.capturedAmountMinor = 0) :
    ∃ res, action (voidRequest order requestId) s.db = .ok (res, setPayments s.db
      (updateWhere (isRow order.tenantId (orderPayment order requestId)) applyVoid
        s.db.payment.payments)) :=
  voidOnce_ok h.store hmem (h.own p hmem).tenantId (h.own p hmem).id hstatus hzero

/-- A captured payment is never refused its refund. -/
theorem OrderInv.refund_ok {p : Payment} (h : OrderInv order requestId s)
    (hmem : p ∈ s.db.payment.payments) (hstatus : p.status = .captured)
    (hfull : p.capturedAmountMinor = p.amountMinor) (hkept : p.refundedAmountMinor = 0) :
    ∃ res, action (refundRequest order requestId order.totalMinor) s.db =
      .ok (res, setPayments s.db
        (updateWhere (isRow order.tenantId (orderPayment order requestId))
          (applyRefund (p.refundedAmountMinor + order.totalMinor)) s.db.payment.payments)) := by
  have hown := h.own p hmem
  have hamount := hown.amountMinor
  have hpositive := (h.store.rows p hmem).positive
  exact refundOnce_ok h.store hmem hown.tenantId hown.id (m := ⟨order.currency, order.totalMinor⟩)
    (by rw [hstatus]; rfl) hown.currency.symm (by dsimp only; omega) (by dsimp only; omega)

/-- A first-time request that is refused keeps the invariant: neither the void
of an authorized payment nor the refund of a captured one is refused. -/
theorem OrderInv.refuse {q : Request} {e : PaymentRpcException}
    (h : OrderInv order requestId s) (hq : q ∈ s.sent)
    (hnew : findStoredOperation s.db q.tenantId q.requestId = none)
    (hact : action q s.db = .error (.rpc e)) :
    OrderInv order requestId
      ⟨setOperations s.db (s.db.payment.operations ++ [storedFailure q e]), s.sent⟩ := by
  have hstore : StoreInv
      (setOperations s.db (s.db.payment.operations ++ [storedFailure q e])) :=
    h.store.effect (Q := ⟨fun q' => q' = q, fun _ _ => false⟩) (.refuse rfl hnew)
  refine ⟨hstore, h.shape, h.rows_append hq rfl, h.own, ?_⟩
  cases h.phase with
  | absent hrow hvoid hrefund => exact .absent hrow hvoid hrefund
  | waiting hrow hstatus hvoid hrefund => exact .waiting hrow hstatus hvoid hrefund
  | voided hrow hstatus hrefund => exact .voided hrow hstatus hrefund
  | refunded hrow hstatus hfull hback => exact .refunded hrow hstatus hfull hback
  | @authorized p hrow hstatus hzero hvoid hrefund =>
    refine .authorized hrow hstatus hzero (hvoid.append ?_) hrefund
    intro heq
    cases h.shape q hq with
    | authorize | capture | refund => cases heq
    | void =>
      obtain ⟨res, hok⟩ := h.void_ok (by simp [hrow]) hstatus hzero
      cases hok.symm.trans hact
  | @captured p hrow hstatus hfull hkept hrefund =>
    refine .captured hrow hstatus hfull hkept (hrefund.append ?_)
    intro heq
    cases h.shape q hq with
    | authorize | capture | void => cases heq
    | refund =>
      obtain ⟨res, hok⟩ := h.refund_ok (by simp [hrow]) hstatus hfull hkept
      cases hok.symm.trans hact

/-- A request that was sent arrives. -/
theorem OrderInv.deliver {q : Request} (h : OrderInv order requestId s) (hq : q ∈ s.sent) :
    OrderInv order requestId ⟨(serve q s.db).2, s.sent⟩ := by
  obtain he | ⟨hnew, ⟨res, db₁, hvalid, hact, heq⟩ | ⟨e, hact, heq⟩⟩ := serve_cases q s.db
  · exact h.passive he
  · rw [heq]
    exact h.act hq hvalid hnew (action_ok hact)
  · rw [heq]
    exact h.refuse hq hnew hact

/-! ## Sending -/

/-- A request that undoes nothing may be sent at any time. -/
theorem OrderInv.send {q : Request} (h : OrderInv order requestId s)
    (hq : OrderRequest order requestId q) (hvoid : q.requestId ≠ .void requestId)
    (hrefund : q.requestId ≠ .refund requestId order.totalMinor) :
    OrderInv order requestId (s.send q) := by
  refine ⟨h.store, List.forall_mem_cons.mpr ⟨hq, h.shape⟩, ?_, h.own, ?_⟩
  · intro o ho
    obtain ⟨q', hq', heq⟩ := h.rows o ho
    exact ⟨q', List.mem_cons_of_mem _ hq', heq⟩
  · cases h.phase with
    | absent hrow hv hr => exact .absent hrow (hv.cons hvoid) (hr.cons hrefund)
    | waiting hrow hst hv hr => exact .waiting hrow hst (hv.cons hvoid) (hr.cons hrefund)
    | authorized hrow hst hz hv hr => exact .authorized hrow hst hz hv (hr.cons hrefund)
    | captured hrow hst hf hk hr => exact .captured hrow hst hf hk hr
    | voided hrow hst hr => exact .voided hrow hst (hr.cons hrefund)
    | refunded hrow hst hf hb => exact .refunded hrow hst hf hb

/-- The void of an authorized payment may be sent. -/
theorem OrderInv.send_void {p : Payment} (h : OrderInv order requestId s)
    (hmem : p ∈ s.db.payment.payments) (hstatus : p.status = .authorized) :
    OrderInv order requestId (s.send (voidRequest order requestId)) := by
  have hone := h.row_of_mem hmem
  refine ⟨h.store, List.forall_mem_cons.mpr ⟨.void, h.shape⟩, ?_, h.own, ?_⟩
  · intro o ho
    obtain ⟨q', hq', heq⟩ := h.rows o ho
    exact ⟨q', List.mem_cons_of_mem _ hq', heq⟩
  · cases h.phase with
    | authorized hrow hst hz hv hr =>
      exact .authorized hrow hst hz hv (hr.cons (by simp [voidRequest]))
    | absent hrow => simp [hrow] at hmem
    | waiting hrow hst | captured hrow hst | voided hrow hst | refunded hrow hst =>
      rw [hone] at hrow
      cases hrow
      simp [hstatus] at hst

/-- The refund of a captured payment may be sent. -/
theorem OrderInv.send_refund {p : Payment} (h : OrderInv order requestId s)
    (hmem : p ∈ s.db.payment.payments) (hstatus : p.status = .captured) :
    OrderInv order requestId (s.send (refundRequest order requestId order.totalMinor)) := by
  have hone := h.row_of_mem hmem
  refine ⟨h.store, List.forall_mem_cons.mpr ⟨.refund, h.shape⟩, ?_, h.own, ?_⟩
  · intro o ho
    obtain ⟨q', hq', heq⟩ := h.rows o ho
    exact ⟨q', List.mem_cons_of_mem _ hq', heq⟩
  · cases h.phase with
    | captured hrow hst hf hk hr => exact .captured hrow hst hf hk hr
    | absent hrow => simp [hrow] at hmem
    | waiting hrow hst | authorized hrow hst | voided hrow hst | refunded hrow hst =>
      rw [hone] at hrow
      cases hrow
      simp [hstatus] at hst

/-! ## Looking -/

/-- What a snapshot of the order's payment shows. -/
theorem OrderInv.snapshot {p : Payment} (h : OrderInv order requestId s)
    (hmem : p ∈ s.db.payment.payments) :
    validateSnapshot order (orderPayment order requestId) (toRecord (paymentRow s.db p)) =
      .ok ⟨p.status, toFailureReason (paymentRow s.db p), p.capturedAmountMinor,
        p.refundedAmountMinor⟩ := by
  have hown := h.own p hmem
  have hrow := h.store.rows p hmem
  have hid : ¬ ((toRecord (paymentRow s.db p)).paymentId ≠ orderPayment order requestId ∨
      (toRecord (paymentRow s.db p)).merchantReference ≠ order.id) := by
    rw [not_or, not_not, not_not]
    exact ⟨hown.id, hown.orderId⟩
  have hamounts : ¬ ((toRecord (paymentRow s.db p)).currency ≠ order.currency ∨
      (toRecord (paymentRow s.db p)).authorizedAmount ≠ order.totalMinor ∨
      (toRecord (paymentRow s.db p)).authorizedAmount < 0 ∨
      (toRecord (paymentRow s.db p)).capturedAmount < 0 ∨
      (toRecord (paymentRow s.db p)).refundedAmount < 0 ∨
      (toRecord (paymentRow s.db p)).capturedAmount >
        (toRecord (paymentRow s.db p)).authorizedAmount ∨
      (toRecord (paymentRow s.db p)).refundedAmount >
        (toRecord (paymentRow s.db p)).capturedAmount) := by
    have hpositive := hrow.positive
    have hrefunded := hrow.refunded_nonneg
    have hback := hrow.refunded_le
    have hcaptured := hrow.captured_le
    simp only [toRecord, paymentRow, hown.currency, hown.amountMinor, ne_eq, not_true_eq_false,
      false_or]
    rw [hown.amountMinor] at hpositive hcaptured
    omega
  unfold validateSnapshot
  rw [if_neg hid, if_neg hamounts]
  have hstatus : (toRecord (paymentRow s.db p)).status = p.status := hrow.toPaymentStatus_eq
  rw [hstatus]
  rfl

/-- A look sees the payment as it is, and calls for the void of an authorized
payment or the refund of a captured one. -/
theorem OrderInv.look (h : OrderInv order requestId s) :
    OrderInv order requestId
      ⟨(lookAt order requestId s.db).2, (lookAt order requestId s.db).1.toList ++ s.sent⟩ := by
  have heff : PaymentStore.Effect .passive s.db
      (serveGetPayment order.tenantId (orderPayment order requestId) s.db).2 :=
    (serveGetPayment_effect _ _ s.db).weaken (fun _ hq => hq) fun _ _ _ => rfl
  have hafter := h.passive heff
  unfold lookAt
  dsimp only
  cases hread : (serveGetPayment order.tenantId (orderPayment order requestId) s.db).1 with
  | error e => exact hafter
  | ok record =>
    obtain ⟨p, hmem, -, -, rfl⟩ := serveGetPayment_ok hread
    simp only [paymentRecord, hafter.snapshot hmem]
    split
    · exact hafter
    · have hone := hafter.row_of_mem hmem
      unfold compensationRequest
      dsimp only
      split
      · -- the payment holds captured funds
        rename_i hleft
        cases hafter.phase with
        | absent hrow =>
          rw [hone] at hrow
          cases hrow
        | waiting hrow hst | authorized hrow hst hz | voided hrow hst =>
          rw [hone] at hrow
          cases hrow
          have hinv := hafter.store.rows p hmem
          have hzero : p.capturedAmountMinor = 0 := by
            first
              | exact hz
              | exact hinv.uncaptured (by rcases hst with hst | hst <;> simp [hst, settledStatus])
              | exact hinv.uncaptured (by simp [hst, settledStatus])
          have := hinv.refunded_nonneg
          omega
        | captured hrow hst hfull hkept =>
          rw [hone] at hrow
          cases hrow
          have hamount := (hafter.own p hmem).amountMinor
          rw [hkept, hfull, hamount, sub_zero]
          exact hafter.send_refund hmem hst
        | refunded hrow hst hfull hback =>
          rw [hone] at hrow
          cases hrow
          omega
      · split
        · rename_i hst
          exact hafter.send_void hmem hst
        · exact hafter

/-! ## The desk -/

/-- What the invariant does not read may change. -/
theorem OrderInv.congr {db' : Db} (h : OrderInv order requestId s) (hstore : StoreInv db')
    (hpayments : db'.payment.payments = s.db.payment.payments)
    (hoperations : db'.payment.operations = s.db.payment.operations) :
    OrderInv order requestId ⟨db', s.sent⟩ := by
  refine ⟨hstore, h.shape, ?_, ?_, ?_⟩
  · rw [hoperations]
    exact h.rows
  · rw [hpayments]
    exact h.own
  · rw [hpayments, hoperations]
    exact h.phase

/-- The payment service on its own. -/
theorem OrderInv.service {a : PaymentStore.Action} {db' : Db} (h : OrderInv order requestId s)
    (ha : isOwnWork a = true) (hstep : PaymentStore.step s.db a = some db') :
    OrderInv order requestId ⟨db', s.sent⟩ := by
  have hstore : StoreInv db' := h.store.step hstep
  cases step_effect h.store.ids hstep with
  | store he =>
    refine he.invariant (I := fun db => OrderInv order requestId ⟨db, s.sent⟩) h ?_
    intro db₁ db₂ hinv heff
    refine hinv.passive (heff.weaken ?_ fun _ _ _ => rfl)
    intro q hq
    cases scope_request hq
    cases ha
  | decided hnow hi =>
    obtain ⟨rfl, -, -⟩ := insertDecision_ok hi
    exact h.congr hstore rfl rfl
  | environment => exact h.congr hstore rfl rfl

theorem OrderInv.step {s' : Desk} {e : Desk.Event} (h : OrderInv order requestId s)
    (hstep : Desk.step order requestId s e = some s') : OrderInv order requestId s' := by
  cases e with
  | authorize method token =>
    cases hstep
    exact h.send (.authorize method token) (by simp [authorizeRequest])
      (by simp [authorizeRequest])
  | capture =>
    cases hstep
    exact h.send .capture (by simp [captureRequest]) (by simp [captureRequest])
  | compensate =>
    cases hstep
    exact h.look
  | deliver i =>
    obtain ⟨q, hq, rfl⟩ := Option.map_eq_some_iff.mp hstep
    exact h.deliver (List.mem_of_getElem? hq)
  | service a =>
    simp only [Desk.step] at hstep
    split at hstep
    · rename_i ha
      obtain ⟨db', hdb, rfl⟩ := Option.map_eq_some_iff.mp hstep
      exact h.service ha hdb
    · cases hstep

theorem OrderInv.of_reachable (h : Desk.Reachable order requestId s) :
    OrderInv order requestId s := by
  obtain ⟨db₀, hinitial, hr⟩ := h
  obtain ⟨hpayments, hoperations, -⟩ := id hinitial
  refine hr.invariant ?_ fun _ _ _ hinv _ hs => hinv.step hs
  refine ⟨StoreInv.of_initial hinitial, by simp, by simp [hoperations], by simp [hpayments], ?_⟩
  exact .absent hpayments (fun _ hq => by cases hq) fun _ hq => by cases hq

/-! ## Rows under a request -/

/-- A request leaves a payment's row alone, or acts for the first time. -/
theorem serve_row {q : Request} {db : Db} {p : Payment} (hmem : p ∈ db.payment.payments)
    (hpending : p.status ≠ .pending) :
    p ∈ (serve q db).2.payment.payments ∨
      ∃ res db₁, ActionEffect q db res db₁ ∧
        (serve q db).2.payment.payments = db₁.payment.payments := by
  have hother : ∀ {r : Payment} {f : Payment → Payment},
      p ∈ updateWhere (isPendingRow r.tenantId r.id) f db.payment.payments := by
    intro r f
    refine mem_updateWhere_of_not hmem ?_
    cases hs : isPendingRow r.tenantId r.id p with
    | false => rfl
    | true => exact absurd (isPendingRow_iff.mp hs).2.2 hpending
  have heff := serve_effect q db
  generalize (serve q db).2 = db' at heff
  cases heff with
  | refl => exact .inl hmem
  | refuse => exact .inl hmem
  | quarantine => exact .inl hother
  | resolve => exact .inl hother
  | act hq hvalid hnew hact =>
    cases hq
    exact .inr ⟨_, _, hact, rfl⟩

/-- The statuses in which an order's payment is out of a request's reach. -/
def Refuses (status : PaymentStatus) : PaymentMessage → Prop
  | .authorize .. => True
  | .capture .. => status = .captured ∨ status = .voided ∨ status = .refunded
  | .void .. => status = .captured ∨ status = .voided ∨ status = .refunded
  | .refund .. => status = .voided ∨ status = .refunded

/-- A request for a payment out of its reach changes nothing. -/
theorem OrderInv.kept {q : Request} {p : Payment} (h : OrderInv order requestId s)
    (hq : q ∈ s.sent) (hrow : s.db.payment.payments = [p]) (hpending : p.status ≠ .pending)
    (hrefuses : Refuses p.status q.message) : (serve q s.db).2.payment.payments = [p] := by
  have hmem : p ∈ s.db.payment.payments := by simp [hrow]
  have hone : ∀ r ∈ s.db.payment.payments, r = p := by simp [hrow]
  -- nothing is left to capture or to refund of a refunded payment
  have hspent : p.status = .refunded →
      p.amountMinor ≤ p.capturedAmountMinor ∧ p.capturedAmountMinor ≤ p.refundedAmountMinor := by
    intro hst
    cases h.phase with
    | absent hr => rw [hrow] at hr; cases hr
    | waiting hr hst' | authorized hr hst' | captured hr hst' | voided hr hst' =>
      rw [hrow] at hr
      cases hr
      simp [hst] at hst'
    | refunded hr hst' hfull hback =>
      rw [hrow] at hr
      cases hr
      omega
  rcases serve_row (q := q) hmem hpending with hkept | ⟨res, db₁, hact, -⟩
  · exact (h.deliver hq).row_of_mem hkept
  · exfalso
    cases hact with
    | @authorize o m method token stored status r hmessage horder hpayable htotal hinactive
        hstatus hr hfresh =>
      cases h.shape q hq with
      | capture | void | refund => cases hmessage
      | authorize =>
        refine hfresh p hmem ((h.own p hmem).id.trans ?_)
        rw [hr]
        rfl
    | capture hmessage hr ht hproof hst hpos hle =>
      rw [hone _ hr] at hst hle
      rw [hmessage] at hrefuses
      rcases hrefuses with hs | hs | hs
      · simp [hs] at hst
      · simp [hs] at hst
      · have := hspent hs
        omega
    | void hmessage hr ht hproof hst =>
      rw [hone _ hr] at hst
      rw [hmessage] at hrefuses
      rcases hrefuses with hs | hs | hs <;> simp [hs] at hst
    | refund hmessage hr ht hproof hst hpos hle =>
      rw [hone _ hr] at hst hle
      rw [hmessage] at hrefuses
      rcases hrefuses with hs | hs
      · simp [hs, settledStatus] at hst
      · have := hspent hs
        omega

/-! ## What is left to undo -/

/-- At most so many actions are left until the payment holds nothing: a void
that may come too late, and a refund. -/
inductive Left (db : Db) : Nat → Prop where
  | authorized {p : Payment} {n : Nat} (hrow : db.payment.payments = [p])
      (hstatus : p.status = .authorized) (hzero : p.capturedAmountMinor = 0) : Left db (n + 2)
  | captured {p : Payment} {n : Nat} (hrow : db.payment.payments = [p])
      (hstatus : p.status = .captured) (hfull : p.capturedAmountMinor = p.amountMinor)
      (hkept : p.refundedAmountMinor = 0) : Left db (n + 1)
  | settled {p : Payment} {n : Nat} (hrow : db.payment.payments = [p])
      (hstatus : p.status = .voided ∧ p.capturedAmountMinor = 0 ∨
        p.status = .refunded ∧ p.capturedAmountMinor = p.amountMinor)
      (hbalance : p.capturedAmountMinor = p.refundedAmountMinor) : Left db n

/-- The phase of a payment that is neither pending nor failed. -/
theorem OrderInv.left {p : Payment} (h : OrderInv order requestId s)
    (hrow : s.db.payment.payments = [p]) (hstatus : p.status ≠ .pending ∧ p.status ≠ .failed) :
    Left s.db 2 := by
  have hinv := h.store.rows p (by simp [hrow])
  cases h.phase with
  | absent hr => rw [hrow] at hr; cases hr
  | waiting hr hst =>
    rw [hrow] at hr
    cases hr
    rcases hst with hst | hst
    · exact absurd hst hstatus.1
    · exact absurd hst hstatus.2
  | authorized hr hst hzero => exact .authorized hr hst hzero
  | captured hr hst hfull hkept => exact .captured hr hst hfull hkept
  | voided hr hst =>
    rw [hrow] at hr
    cases hr
    have hzero := hinv.uncaptured (by rw [hst]; rfl)
    have := hinv.refunded_nonneg
    have := hinv.refunded_le
    exact .settled hrow (.inl ⟨hst, hzero⟩) (by omega)
  | refunded hr hst hfull hback =>
    exact .settled hr (.inr ⟨hst, hfull⟩) (by omega)

/-- The capture in flight turns at most a void into a refund. -/
theorem OrderInv.land {n : Nat} {b : Bool} (h : OrderInv order requestId s)
    (hsent : captureRequest order requestId ∈ s.sent) (hleft : Left s.db n) :
    OrderInv order requestId ⟨land (captureRequest order requestId) s.db b, s.sent⟩ ∧
      Left (Checkout.land (captureRequest order requestId) s.db b) n := by
  cases b with
  | false => exact ⟨h, hleft⟩
  | true =>
    have hafter := h.deliver hsent
    refine ⟨hafter, ?_⟩
    cases hleft with
    | @captured p n hrow hst hfull hkept =>
      exact .captured (h.kept hsent hrow (by simp [hst]) (.inl hst)) hst hfull hkept
    | @settled p n hrow hst hbalance =>
      have hrefuses : p.status = .captured ∨ p.status = .voided ∨ p.status = .refunded :=
        .inr (hst.imp And.left And.left)
      have hpending : p.status ≠ .pending := by
        rcases hst with ⟨hs, -⟩ | ⟨hs, -⟩ <;> simp [hs]
      exact .settled (h.kept hsent hrow hpending hrefuses) hst hbalance
    | @authorized p n hrow hst hzero =>
      have hmem : p ∈ s.db.payment.payments := by simp [hrow]
      rcases serve_row (q := captureRequest order requestId) hmem (by simp [hst]) with
        hkept | ⟨res, db₁, hact, heq⟩
      · exact .authorized (hafter.row_of_mem hkept) hst hzero
      · cases hact with
        | authorize hmessage | void hmessage | refund hmessage => cases hmessage
        | @capture r m amount hmessage hr ht hproof hstatus hpos hle hmoney =>
          have hrp : r = p := by simpa [hrow] using hr
          subst hrp
          obtain ⟨-, rfl⟩ := PaymentMessage.capture.inj hmessage
          have hsel : isRow order.tenantId r.id r = true := isRow_iff.mpr ⟨ht, rfl⟩
          have hinv := h.store.rows r hmem
          have hamount : amount = r.amountMinor := by
            rw [(h.own r hmem).amountMinor]
            exact ((hmoney _ rfl).1).symm
          have hrefunded : r.refundedAmountMinor = 0 := by
            have := hinv.refunded_nonneg
            have := hinv.refunded_le
            omega
          have hnew : (serve (captureRequest order requestId) s.db).2.payment.payments =
              [applyCapture s.db.now (r.capturedAmountMinor + amount) r] := by
            rw [heq, setPayments_payments, hrow]
            exact updateWhere_one hsel
          refine .captured hnew ?_ ?_ hrefunded
          · simp [applyCapture, statusForBalances, hzero, hamount, hrefunded]
          · simp [applyCapture, hzero, hamount]

/-- The void of an authorized payment voids it. -/
theorem OrderInv.serve_void {n : Nat} (h : OrderInv order requestId s)
    (hsent : voidRequest order requestId ∈ s.sent)
    (hvalid : validate (voidRequest order requestId) = none) (hleft : Left s.db (n + 2)) :
    Left (serve (voidRequest order requestId) s.db).2 (n + 1) := by
  cases hleft with
  | @captured p _ hrow hst hfull hkept =>
    exact .captured (h.kept hsent hrow (by simp [hst]) (.inl hst)) hst hfull hkept
  | @settled p _ hrow hst hbalance =>
    have hrefuses : p.status = .captured ∨ p.status = .voided ∨ p.status = .refunded :=
      .inr (hst.imp And.left And.left)
    have hpending : p.status ≠ .pending := by
      rcases hst with ⟨hs, -⟩ | ⟨hs, -⟩ <;> simp [hs]
    exact .settled (h.kept hsent hrow hpending hrefuses) hst hbalance
  | @authorized p _ hrow hst hzero =>
    have hmem : p ∈ s.db.payment.payments := by simp [hrow]
    have hown := h.own p hmem
    have hinv := h.store.rows p hmem
    have hnew : findStoredOperation s.db order.tenantId (.void requestId) = none := by
      cases h.phase with
      | authorized _ _ _ hvoid => exact hvoid.not_stored _
      | absent hr => rw [hrow] at hr; cases hr
      | waiting hr hst' | captured hr hst' | voided hr hst' | refunded hr hst' =>
        rw [hrow] at hr
        cases hr
        simp [hst] at hst'
    obtain ⟨res, hact⟩ := h.void_ok hmem hst hzero
    have hsel : isRow order.tenantId (orderPayment order requestId) p = true :=
      isRow_iff.mpr ⟨hown.tenantId, hown.id⟩
    have hvoided : updateWhere (isRow order.tenantId (orderPayment order requestId)) applyVoid
        s.db.payment.payments = [applyVoid p] := by
      rw [hrow]
      exact updateWhere_one hsel
    rw [serve_of_action hvalid rfl hnew hact rfl ?_]
    · have := hinv.refunded_nonneg
      have := hinv.refunded_le
      exact .settled hvoided (.inl ⟨rfl, hzero⟩) (by simp only [applyVoid]; omega)
    · intro id hid
      refine ⟨applyVoid p, by simp [hvoided], hown.tenantId, ?_⟩
      exact hown.id.trans (Option.some.inj hid)

/-- The refund of a captured payment refunds it. -/
theorem OrderInv.serve_refund {n : Nat} (h : OrderInv order requestId s)
    (hsent : refundRequest order requestId order.totalMinor ∈ s.sent)
    (hvalid : validate (refundRequest order requestId order.totalMinor) = none)
    (hleft : Left s.db 1) :
    Left (serve (refundRequest order requestId order.totalMinor) s.db).2 n := by
  cases hleft with
  | @settled p _ hrow hst hbalance =>
    have hrefuses : p.status = .voided ∨ p.status = .refunded := hst.imp And.left And.left
    have hpending : p.status ≠ .pending := by
      rcases hst with ⟨hs, -⟩ | ⟨hs, -⟩ <;> simp [hs]
    exact .settled (h.kept hsent hrow hpending hrefuses) hst hbalance
  | @captured p _ hrow hst hfull hkept =>
    have hmem : p ∈ s.db.payment.payments := by simp [hrow]
    have hown := h.own p hmem
    have hamount := hown.amountMinor
    have hpositive := (h.store.rows p hmem).positive
    have hnew : findStoredOperation s.db order.tenantId (.refund requestId order.totalMinor) =
        none := by
      cases h.phase with
      | captured _ _ _ _ hrefund => exact hrefund.not_stored _
      | absent hr => rw [hrow] at hr; cases hr
      | waiting hr hst' | authorized hr hst' | voided hr hst' | refunded hr hst' =>
        rw [hrow] at hr
        cases hr
        simp [hst] at hst'
    obtain ⟨res, hact⟩ := h.refund_ok hmem hst hfull hkept
    have hsel : isRow order.tenantId (orderPayment order requestId) p = true :=
      isRow_iff.mpr ⟨hown.tenantId, hown.id⟩
    have hback : p.refundedAmountMinor + order.totalMinor = p.amountMinor := by omega
    have hrefunded : updateWhere (isRow order.tenantId (orderPayment order requestId))
        (applyRefund (p.refundedAmountMinor + order.totalMinor)) s.db.payment.payments =
        [applyRefund (p.refundedAmountMinor + order.totalMinor) p] := by
      rw [hrow]
      exact updateWhere_one hsel
    rw [serve_of_action hvalid rfl hnew hact rfl ?_]
    · refine .settled hrefunded (.inr ⟨?_, hfull⟩) (by simp only [applyRefund]; omega)
      simp [applyRefund, statusForBalances, hback, hfull, hpositive.ne']
    · intro id hid
      refine ⟨applyRefund (p.refundedAmountMinor + order.totalMinor) p, by simp [hrefunded],
        hown.tenantId, ?_⟩
      exact hown.id.trans (Option.some.inj hid)

/-! ## The loop -/

section Loop

variable {capture : Request} {lands : List Bool} {db : Db}

/-- A look at the payment, in a program. -/
theorem answered_snapshot {α : Type} {id : PaymentId}
    (f : Except ApiError PaymentSnapshot → Flow α) :
    answered capture (attempt (getPaymentSnapshot order id) >>= f).run lands db =
      answered capture
        (f (paymentRecord (serveGetPayment order.tenantId id
          (land capture db (lands.headD false))).1 >>= validateSnapshot order id)).run
        lands.tail (serveGetPayment order.tenantId id (land capture db (lands.headD false))).2 := by
  have hcall : answered capture (attempt (getPaymentSnapshot order id) >>= f).run lands db =
      answered capture ((attempt (ofResult (paymentRecord (serveGetPayment order.tenantId id
        (land capture db (lands.headD false))).1) >>= fun record =>
          ofResult (validateSnapshot order id record)) >>= f).run) lands.tail
        (serveGetPayment order.tenantId id (land capture db (lands.headD false))).2 := rfl
  rw [hcall]
  cases paymentRecord (serveGetPayment order.tenantId id
    (land capture db (lands.headD false))).1 with
  | error e => rfl
  | ok record =>
    cases validateSnapshot order id record with
    | error e => rfl
    | ok s => rfl

/-- A payment operation whose outcome is not believed, in a program. -/
theorem answered_operation {α : Type} {operation : String} {q : Request} (x : Flow α) :
    answered capture (attempt (paymentOperation operation q) >>= fun _ => x).run lands db =
      if (validate q).isNone then
        answered capture x.run lands.tail (serve q (land capture db (lands.headD false))).2
      else none := by
  have hrun : (attempt (paymentOperation operation q) >>= fun _ => x).run =
      .perform (.call (.payment q)) fun reply =>
        (attempt (ofResult (paymentResponse operation reply) >>= fun response =>
          ofResult (requireSucceeded operation response)) >>= fun _ => x).run := rfl
  rw [hrun, answered, storeReply]
  cases (validate q).isNone with
  | false => rfl
  | true =>
    simp only [if_true, Call.received]
    cases paymentResponse operation (serve q (land capture db (lands.headD false))).1 with
    | error e => rfl
    | ok response => rfl

end Loop

/-- What the loop reads off a payment that is neither pending nor failed. -/
theorem OrderInv.read {p : Payment} (h : OrderInv order requestId s)
    (hrow : s.db.payment.payments = [p]) (hpending : p.status ≠ .pending) :
    serveGetPayment order.tenantId (orderPayment order requestId) s.db =
        (.ok (toRecord (paymentRow s.db p)), s.db) ∧
      (paymentRecord (.ok (toRecord (paymentRow s.db p))) >>=
        validateSnapshot order (orderPayment order requestId)) =
      .ok ⟨p.status, toFailureReason (paymentRow s.db p), p.capturedAmountMinor,
        p.refundedAmountMinor⟩ := by
  have hmem : p ∈ s.db.payment.payments := by simp [hrow]
  have hown := h.own p hmem
  exact ⟨serveGetPayment_settled h.store hmem hown.tenantId hown.id hpending, h.snapshot hmem⟩

/-- A payment that holds nothing is confirmed. -/
theorem confirmed_of_settled {p : Payment} {reason : PaymentFailureReason}
    (hstatus : p.status = .voided ∧ p.capturedAmountMinor = 0 ∨
      p.status = .refunded ∧ p.capturedAmountMinor = p.amountMinor)
    (hbalance : p.capturedAmountMinor = p.refundedAmountMinor) :
    paymentCompensationConfirmed
      ⟨p.status, reason, p.capturedAmountMinor, p.refundedAmountMinor⟩ = true := by
  rcases hstatus with ⟨hst, hzero⟩ | ⟨hst, -⟩
  · simp only [paymentCompensationConfirmed, hst, decide_eq_true_eq]
    omega
  · simp only [paymentCompensationConfirmed, hst, decide_eq_true_eq]
    exact hbalance

/-- How the loop may end: with a confirmed compensation, or at a request that
the service's validation turns away. -/
def Converges (order : PendingOrder) (requestId : RequestId)
    (outcome : Option (Except ApiError Bool × Db)) : Prop :=
  (∃ db sent, outcome = some (.ok true, db) ∧ Left db 0 ∧
    OrderInv order requestId ⟨db, sent⟩) ∨
  (outcome = none ∧ (validate (voidRequest order requestId) ≠ none ∨
    validate (refundRequest order requestId order.totalMinor) ≠ none))

/-- The loop looks at the payment: it ends, or goes on with the snapshot of an
authorized or of a captured payment. -/
theorem OrderInv.observe {n : Nat} {lands : List Bool}
    {f : Except ApiError PaymentSnapshot → Flow Bool} {x : PaymentSnapshot → Flow Bool}
    (h : OrderInv order requestId s) (hsent : captureRequest order requestId ∈ s.sent)
    (hleft : Left s.db n)
    (hf : ∀ snapshot, f (.ok snapshot) =
      if paymentCompensationConfirmed snapshot then pure true else x snapshot)
    (hx : ∀ db₁ p reason, OrderInv order requestId ⟨db₁, s.sent⟩ → Left db₁ n →
      db₁.payment.payments = [p] →
      (p.status = .authorized ∧ p.capturedAmountMinor = 0 ∨
        p.status = .captured ∧ p.capturedAmountMinor = p.amountMinor) →
      p.refundedAmountMinor = 0 →
      Converges order requestId (answered (captureRequest order requestId)
        (x ⟨p.status, reason, p.capturedAmountMinor, p.refundedAmountMinor⟩).run lands.tail
        db₁)) :
    Converges order requestId (answered (captureRequest order requestId)
      (attempt (getPaymentSnapshot order (orderPayment order requestId)) >>= f).run lands s.db) := by
  obtain ⟨h₁, hleft₁⟩ := h.land (b := lands.headD false) hsent hleft
  rw [answered_snapshot]
  generalize Checkout.land (captureRequest order requestId) s.db (lands.headD false) = db₁
    at h₁ hleft₁ ⊢
  cases id hleft₁ with
  | @settled p _ hrow hst hbalance =>
    have hpending : p.status ≠ .pending := by
      rcases hst with ⟨hs, -⟩ | ⟨hs, -⟩ <;> simp [hs]
    obtain ⟨hget, hread⟩ := h₁.read hrow hpending
    rw [hget, hread, hf, if_pos (confirmed_of_settled hst hbalance)]
    exact .inl ⟨db₁, s.sent, rfl, .settled hrow hst hbalance, h₁⟩
  | @authorized p m hrow hst hzero =>
    obtain ⟨hget, hread⟩ := h₁.read hrow (by simp [hst])
    have hconfirmed : paymentCompensationConfirmed ⟨p.status, toFailureReason (paymentRow db₁ p),
        p.capturedAmountMinor, p.refundedAmountMinor⟩ ≠ true := by
      simp [paymentCompensationConfirmed, hst]
    rw [hget, hread, hf, if_neg hconfirmed]
    have hinv := h₁.store.rows p (by simp [hrow])
    have := hinv.refunded_nonneg
    have := hinv.refunded_le
    exact hx db₁ p _ h₁ hleft₁ hrow (.inl ⟨hst, hzero⟩) (by omega)
  | @captured p m hrow hst hfull hkept =>
    obtain ⟨hget, hread⟩ := h₁.read hrow (by simp [hst])
    have hconfirmed : paymentCompensationConfirmed ⟨p.status, toFailureReason (paymentRow db₁ p),
        p.capturedAmountMinor, p.refundedAmountMinor⟩ ≠ true := by
      simp [paymentCompensationConfirmed, hst]
    rw [hget, hread, hf, if_neg hconfirmed]
    exact hx db₁ p _ h₁ hleft₁ hrow (.inr ⟨hst, hfull⟩) hkept

/-- An authorized payment is left with at least two actions. -/
theorem Left.two_of_authorized {db : Db} {p : Payment} {n : Nat} (h : Left db n)
    (hrow : db.payment.payments = [p]) (hst : p.status = .authorized) : ∃ m, n = m + 2 := by
  cases h with
  | authorized => exact ⟨_, rfl⟩
  | captured hr hst' =>
    rw [hrow] at hr
    cases hr
    simp [hst] at hst'
  | settled hr hst' =>
    rw [hrow] at hr
    cases hr
    simp [hst] at hst'

/-- The loop, from a payment with at most as many actions left as there are
rounds: a round takes one action. -/
theorem OrderInv.compensate {rounds n : Nat} {lands : List Bool}
    (h : OrderInv order requestId s) (hsent : captureRequest order requestId ∈ s.sent)
    (hleft : Left s.db (n + 1)) (hrounds : n + 1 ≤ rounds) :
    Converges order requestId (answered (captureRequest order requestId)
      (compensatePayment order (orderPayment order requestId) requestId rounds).run lands
      s.db) := by
  induction rounds generalizing s n lands with
  | zero => omega
  | succ rounds ih =>
    rw [compensatePayment]
    refine h.observe hsent hleft (fun _ => rfl) ?_
    intro db₁ p reason h₁ hleft₁ hrow hst hkept
    have hmem : p ∈ (Desk.mk db₁ s.sent).db.payment.payments := by simp [hrow]
    rcases hst with ⟨hst, hzero⟩ | ⟨hst, hfull⟩
    · -- the void, unless the capture in flight comes first
      obtain ⟨m, hm⟩ := hleft₁.two_of_authorized hrow hst
      obtain rfl : n = m + 1 := by omega
      have hvoid := h₁.send_void hmem hst
      obtain ⟨h₂, hleft₂⟩ := hvoid.land (b := lands.tail.headD false)
        (List.mem_cons_of_mem _ hsent) hleft₁
      have hsent₂ : voidRequest order requestId ∈ (Desk.mk (Checkout.land
        (captureRequest order requestId) db₁ (lands.tail.headD false))
        (voidRequest order requestId :: s.sent)).sent := List.mem_cons_self
      simp only [compensationAction, hst, hzero, hkept, sub_self, lt_self_iff_false, if_true,
        if_false, voidPayment]
      rw [answered_operation]
      split
      · rename_i hvalid
        have hvalid' : validate (voidRequest order requestId) = none :=
          Option.isNone_iff_eq_none.mp hvalid
        refine (h₂.deliver hsent₂).observe (List.mem_cons_of_mem _ hsent)
          (h₂.serve_void hsent₂ hvalid' hleft₂) (fun _ => rfl) ?_
        intro db₄ p₄ reason₄ h₄ hleft₄ _ _ _
        exact ih h₄ (List.mem_cons_of_mem _ hsent) hleft₄ (by omega)
      · rename_i hvalid
        exact .inr ⟨rfl, .inl fun hnone => hvalid (Option.isNone_iff_eq_none.mpr hnone)⟩
    · -- the refund
      have hamount := (h₁.own p hmem).amountMinor
      have hpositive := (h₁.store.rows p hmem).positive
      have hrefund := h₁.send_refund hmem hst
      have hleft₁' : Left db₁ 1 := .captured hrow hst hfull hkept
      obtain ⟨h₂, hleft₂⟩ := hrefund.land (b := lands.tail.headD false)
        (List.mem_cons_of_mem _ hsent) hleft₁'
      have hsent₂ : refundRequest order requestId order.totalMinor ∈ (Desk.mk (Checkout.land
        (captureRequest order requestId) db₁ (lands.tail.headD false))
        (refundRequest order requestId order.totalMinor :: s.sent)).sent := List.mem_cons_self
      have hheld : p.capturedAmountMinor - p.refundedAmountMinor = order.totalMinor := by omega
      have hpos : order.totalMinor > 0 := by omega
      simp only [compensationAction, hheld, hpos, if_true, refundPayment]
      rw [answered_operation]
      split
      · rename_i hvalid
        have hvalid' : validate (refundRequest order requestId order.totalMinor) = none :=
          Option.isNone_iff_eq_none.mp hvalid
        refine (h₂.deliver hsent₂).observe (n := 0) (List.mem_cons_of_mem _ hsent)
          (h₂.serve_refund hsent₂ hvalid' hleft₂) (fun _ => rfl) ?_
        intro db₄ p₄ reason₄ _ hleft₄ hrow₄ hst₄ _
        -- a settled payment is neither authorized nor captured
        cases hleft₄ with
        | settled hr hst' =>
          rw [hrow₄] at hr
          cases hr
          rcases hst₄ with ⟨hs, -⟩ | ⟨hs, -⟩ <;> simp [hs] at hst'
      · rename_i hvalid
        exact .inr ⟨rfl, .inr fun hnone => hvalid (Option.isNone_iff_eq_none.mpr hnone)⟩

/-- A payment that holds nothing is out of the reach of every later capture. -/
theorem OrderInv.spent {p : Payment} (h : OrderInv order requestId s)
    (hrow : s.db.payment.payments = [p])
    (hstatus : p.status = .voided ∧ p.capturedAmountMinor = 0 ∨
      p.status = .refunded ∧ p.capturedAmountMinor = p.amountMinor) (n : Nat) :
    ((fun db => (serve (captureRequest order requestId) db).2)^[n] s.db).payment.payments =
      [p] := by
  have hpending : p.status ≠ .pending := by
    rcases hstatus with ⟨hs, -⟩ | ⟨hs, -⟩ <;> simp [hs]
  induction n generalizing s with
  | zero => exact hrow
  | succ n ih =>
    have hcapture : OrderInv order requestId (s.send (captureRequest order requestId)) :=
      h.send .capture (by simp [captureRequest]) (by simp [captureRequest])
    have hsent : captureRequest order requestId ∈
        (s.send (captureRequest order requestId)).sent := List.mem_cons_self
    have hafter := hcapture.deliver hsent
    have hkept := hcapture.kept hsent hrow hpending (.inr (hstatus.imp And.left And.left))
    exact ih hafter hkept

/-- Compensation converges: from any state that checkout's own requests for the
order lead to, with the payment authorized or captured, the loop ends with a
confirmed compensation whenever the store answers its calls, wherever the
capture in flight takes effect; it holds nothing then, and no later delivery of
that capture changes it. The store answers every call when the ids of the void
and of the refund pass the service's validation. -/
theorem compensation_converges (h : Desk.Reachable order requestId s) {p : Payment}
    (hmem : p ∈ s.db.payment.payments) (hstatus : p.status = .authorized ∨ p.status = .captured)
    (lands : List Bool) :
    (∀ r db', answered (captureRequest order requestId)
        (compensatePayment order (orderPayment order requestId) requestId 3).run lands s.db =
          some (r, db') →
      r = .ok true ∧ ∃ p' ∈ db'.payment.payments, p'.id = p.id ∧
        (p'.status = .voided ∧ p'.capturedAmountMinor = 0 ∨
          p'.capturedAmountMinor = p'.refundedAmountMinor) ∧
        ∀ n, p' ∈ ((fun db => (serve (captureRequest order requestId) db).2)^[n]
          db').payment.payments) ∧
    (validate (voidRequest order requestId) = none →
      validate (refundRequest order requestId order.totalMinor) = none →
      (answered (captureRequest order requestId)
        (compensatePayment order (orderPayment order requestId) requestId 3).run lands
        s.db).isSome = true) := by
  have hinv : OrderInv order requestId s := .of_reachable h
  have hcapture : OrderInv order requestId (s.send (captureRequest order requestId)) :=
    hinv.send .capture (by simp [captureRequest]) (by simp [captureRequest])
  have hleft : Left s.db 2 := by
    refine hinv.left (hinv.row_of_mem hmem) ?_
    rcases hstatus with hst | hst <;> simp [hst]
  have hloop : Converges order requestId (answered (captureRequest order requestId)
      (compensatePayment order (orderPayment order requestId) requestId 3).run lands s.db) :=
    hcapture.compensate List.mem_cons_self hleft (by omega)
  refine ⟨?_, ?_⟩
  · intro r db' hrun
    rcases hloop with ⟨db, sent, hsome, hend, hinv'⟩ | ⟨hnone, -⟩
    · cases hsome.symm.trans hrun
      cases hend with
      | @settled p' _ hrow hst hbalance =>
        refine ⟨rfl, p', by simp [hrow], ?_, ?_, ?_⟩
        · rw [(hinv'.own p' (by simp [hrow])).id, (hinv.own p hmem).id]
        · exact .inr hbalance
        · intro n
          rw [hinv'.spent hrow hst n]
          exact List.mem_singleton.mpr rfl
    · cases hnone.symm.trans hrun
  · intro hvoid hrefund
    rcases hloop with ⟨db, sent, hsome, -, -⟩ | ⟨-, hinvalid⟩
    · exact Option.isSome_iff_exists.mpr ⟨_, hsome⟩
    · rcases hinvalid with hne | hne
      · exact absurd hvoid hne
      · exact absurd hrefund hne

/-- The desk after the sample order's authorization. -/
def authorizedDesk : Desk :=
  (run (Desk.step sampleOrder ⟨7, 4⟩) ⟨PaymentStore.sampleStart, []⟩
    [.authorize .card (.other 0), .deliver 0]).getD ⟨PaymentStore.sampleStart, []⟩

/-- The capture lands between the look and the void: the void fails, and the
second round refunds. -/
theorem compensation_converges_sample :
    (answered (captureRequest sampleOrder ⟨7, 4⟩)
      (compensatePayment sampleOrder (orderPayment sampleOrder ⟨7, 4⟩) ⟨7, 4⟩ 3).run [false, true]
      authorizedDesk.db).map (fun r => balances r.2) =
      some [(orderPayment sampleOrder ⟨7, 4⟩, .refunded, 500, 500)] ∧
    ∀ r db', answered (captureRequest sampleOrder ⟨7, 4⟩)
        (compensatePayment sampleOrder (orderPayment sampleOrder ⟨7, 4⟩) ⟨7, 4⟩ 3).run
        [false, true] authorizedDesk.db = some (r, db') → r = .ok true := by
  refine ⟨rfl, fun r db' hrun => ?_⟩
  have hstart : PaymentStore.Initial PaymentStore.sampleStart := ⟨rfl, rfl, rfl⟩
  have hdesk : run (Desk.step sampleOrder ⟨7, 4⟩) ⟨PaymentStore.sampleStart, []⟩
      [.authorize .card (.other 0), .deliver 0] = some authorizedDesk := rfl
  have hmem : authorizedDesk.db.payment.payments.head (by decide) ∈
      authorizedDesk.db.payment.payments := List.head_mem _
  exact ((compensation_converges ⟨PaymentStore.sampleStart, hstart, reach_of_run hdesk⟩ hmem
    (.inl (by decide)) [false, true]).1 r db' hrun).1

end CommercePlayground.Checkout
