/-
CommercePlayground.Payment.StoreTheorems — what each store transaction can
do to the tables.

One inversion lemma per operation says everything a successful run did and
under which guards; `Effect` collects them into the six shapes a committed
store transaction has. The invariants of the payment service split on
`Effect` and never unfold an operation again.
-/
import CommercePlayground.Payment.Service

namespace CommercePlayground.PaymentStore

open Lib

/-! ## Field lemmas of the table updates -/

section Fields

variable (db : Db)

@[simp] theorem setPayments_payments (t) : (setPayments db t).payment.payments = t := rfl
@[simp] theorem setPayments_operations (t) :
    (setPayments db t).payment.operations = db.payment.operations := rfl
@[simp] theorem setPayments_decisions (t) :
    (setPayments db t).payment.decisions = db.payment.decisions := rfl
@[simp] theorem setPayments_checkout (t) : (setPayments db t).checkout = db.checkout := rfl
@[simp] theorem setPayments_inventory (t) : (setPayments db t).inventory = db.inventory := rfl
@[simp] theorem setPayments_now (t) : (setPayments db t).now = db.now := rfl
@[simp] theorem setPayments_nextUuid (t) : (setPayments db t).nextUuid = db.nextUuid := rfl

@[simp] theorem setOperations_payments (t) :
    (setOperations db t).payment.payments = db.payment.payments := rfl
@[simp] theorem setOperations_operations (t) : (setOperations db t).payment.operations = t := rfl
@[simp] theorem setOperations_decisions (t) :
    (setOperations db t).payment.decisions = db.payment.decisions := rfl
@[simp] theorem setOperations_checkout (t) : (setOperations db t).checkout = db.checkout := rfl
@[simp] theorem setOperations_inventory (t) :
    (setOperations db t).inventory = db.inventory := rfl
@[simp] theorem setOperations_now (t) : (setOperations db t).now = db.now := rfl
@[simp] theorem setOperations_nextUuid (t) :
    (setOperations db t).nextUuid = db.nextUuid := rfl

@[simp] theorem setDecisions_payments (t) :
    (setDecisions db t).payment.payments = db.payment.payments := rfl
@[simp] theorem setDecisions_operations (t) :
    (setDecisions db t).payment.operations = db.payment.operations := rfl
@[simp] theorem setDecisions_decisions (t) : (setDecisions db t).payment.decisions = t := rfl
@[simp] theorem setDecisions_checkout (t) : (setDecisions db t).checkout = db.checkout := rfl
@[simp] theorem setDecisions_inventory (t) : (setDecisions db t).inventory = db.inventory := rfl
@[simp] theorem setDecisions_now (t) : (setDecisions db t).now = db.now := rfl
@[simp] theorem setDecisions_nextUuid (t) : (setDecisions db t).nextUuid = db.nextUuid := rfl

@[simp] theorem setReconciliations_payment (t) :
    (setReconciliations db t).payment = db.payment := rfl
@[simp] theorem setReconciliations_inventory (t) :
    (setReconciliations db t).inventory = db.inventory := rfl
@[simp] theorem setReconciliations_now (t) : (setReconciliations db t).now = db.now := rfl
@[simp] theorem setReconciliations_nextUuid (t) :
    (setReconciliations db t).nextUuid = db.nextUuid := rfl

end Fields

/-! ## Writes -/

/-- A write of `payments` that the database accepts. -/
theorem writePayments_ok {db db' : Db} {t : List Payment} (h : writePayments db t = .ok db') :
    db' = setPayments db t ∧ (∀ p ∈ t, rowChecks p = true) ∧ KeyUnique (·.id) t ∧
      (activeOrderKeys t).Nodup := by
  unfold writePayments at h
  split at h
  · cases h
  · rename_i hall
    split at h
    · cases h
    · rename_i hkey
      split at h
      · cases h
      · rename_i hidx
        refine ⟨by cases h; rfl, ?_, not_not.mp hkey, not_not.mp hidx⟩
        intro p hp
        have hall' : t.all rowChecks = true := by simpa using hall
        exact List.all_eq_true.mp hall' p hp

/-- A write whose rows all pass their CHECKs is not rejected by a CHECK. -/
theorem writePayments_ne_check {db : Db} {t : List Payment} (h : ∀ p ∈ t, rowChecks p = true) :
    writePayments db t ≠ .error (.sql .check) := by
  have hall : t.all rowChecks = true := List.all_eq_true.mpr h
  unfold writePayments
  rw [hall]
  simp only [Bool.true_eq_false, if_false]
  split
  · simp
  · split <;> simp

theorem insertOperation_ok {db db' : Db} {o : StoredOperation}
    (h : insertOperation db o = .ok db') :
    db' = setOperations db (db.payment.operations ++ [o]) ∧
      (∀ r ∈ db.payment.operations, operationKey r ≠ operationKey o) ∧
      (∀ p, o.paymentId = some p →
        ∃ r ∈ db.payment.payments, r.tenantId = o.tenantId ∧ r.id = p) := by
  unfold insertOperation at h
  split at h
  · cases h
  · rename_i hkey
    split at h
    · cases h
    · rename_i hfk
      refine ⟨by cases h; rfl, ?_, ?_⟩
      · intro r hr heq
        exact hkey (List.mem_map.mpr ⟨r, hr, heq⟩)
      · intro p hp
        rw [hp] at hfk
        simpa using hfk

theorem insertDecision_ok {db db' : Db} {d : ProviderDecision}
    (h : insertDecision db d = .ok db') :
    db' = setDecisions db (db.payment.decisions ++ [d]) ∧
      (∀ e ∈ db.payment.decisions, (e.tenantId, e.paymentId) ≠ (d.tenantId, d.paymentId)) ∧
      (∃ r ∈ db.payment.payments, r.tenantId = d.tenantId ∧ r.id = d.paymentId) := by
  unfold insertDecision at h
  split at h
  · cases h
  · rename_i hkey
    split at h
    · cases h
    · rename_i hfk
      split at h
      · cases h
      · refine ⟨by cases h; rfl, ?_, by simpa using hfk⟩
        intro e he heq
        exact hkey (List.mem_map.mpr ⟨e, he, heq⟩)

/-! ## Reads -/

theorem isRow_iff {t : TenantId} {id : PaymentId} {p : Payment} :
    isRow t id p = true ↔ p.tenantId = t ∧ p.id = id := by
  simp [isRow]

theorem isPendingRow_iff {t : TenantId} {id : PaymentId} {p : Payment} :
    isPendingRow t id p = true ↔ p.tenantId = t ∧ p.id = id ∧ p.status = .pending := by
  simp [isPendingRow]

theorem findPayment_some {db : Db} {t : TenantId} {id : PaymentId} {r : PaymentRow}
    (h : findPayment db t id = some r) :
    r.row ∈ db.payment.payments ∧ r.row.tenantId = t ∧ r.row.id = id ∧
      r = paymentRow db r.row := by
  unfold findPayment at h
  rw [Option.map_eq_some_iff] at h
  obtain ⟨p, hp, rfl⟩ := h
  obtain ⟨hmem, hkey⟩ := find?_some_spec hp
  obtain ⟨ht, hid⟩ := isRow_iff.mp hkey
  exact ⟨hmem, ht, hid, rfl⟩

theorem findStoredOperation_some {db : Db} {t : TenantId} {r : PaymentRequestId}
    {o : StoredOperation} (h : findStoredOperation db t r = some o) :
    o ∈ db.payment.operations ∧ o.tenantId = t ∧ o.requestId = r := by
  obtain ⟨hmem, hkey⟩ := find?_some_spec h
  exact ⟨hmem, of_decide_eq_true hkey⟩

theorem findStoredOperation_none {db : Db} {t : TenantId} {r : PaymentRequestId}
    (h : findStoredOperation db t r = none) :
    ∀ o ∈ db.payment.operations, operationKey o ≠ (t, r) := by
  intro o ho heq
  have := List.find?_eq_none.mp h o ho
  simp only [operationKey, Prod.mk.injEq] at heq
  simp [heq.1, heq.2] at this

/-- No active payment of the order: what an authorize has checked. -/
theorem findByMerchantReference_none {db : Db} {t : TenantId} {o : OrderId}
    (h : (findByMerchantReference db t o).isSome ≠ true) :
    ∀ p ∈ db.payment.payments, p.tenantId = t → p.orderId = o → isActive p = false := by
  intro p hp ht ho
  unfold findByMerchantReference at h
  rw [Option.isSome_map, ne_eq, List.find?_isSome] at h
  cases hact : isActive p with
  | false => rfl
  | true => exact absurd ⟨p, hp, by simp [ht, ho, hact]⟩ h

/-! ## The four operations -/

/-- The decisions after an authorize: one more when the provider decided. -/
def decisionsAfter (db : Db) (p : Payment) (outcome : Option DecisionOutcome) :
    List ProviderDecision :=
  db.payment.decisions ++ (outcome.map fun o => decisionFor p o db.now).toList

/-- The two inserts of an authorize. -/
def insertPayment (db : Db) (p : Payment) (outcome : Option DecisionOutcome) :
    Except StoreError Db :=
  writePayments db (db.payment.payments ++ [p]) >>= fun db₁ => recordDecision db₁ p outcome

theorem insertPayment_ok {db db' : Db} {p : Payment} {outcome : Option DecisionOutcome}
    (h : insertPayment db p outcome = .ok db') :
    (∀ q ∈ db.payment.payments, q.id ≠ p.id) ∧
      db' = setDecisions (setPayments db (db.payment.payments ++ [p]))
        (decisionsAfter db p outcome) := by
  obtain ⟨db₁, hw, hd⟩ := bind_ok h
  obtain ⟨rfl, -, hkey, -⟩ := writePayments_ok hw
  have hnd : (db.payment.payments.map (·.id) ++ [p.id]).Nodup := by
    simpa [KeyUnique] using hkey
  refine ⟨fun q hq heq => (List.nodup_append.mp hnd).2.2 _ (List.mem_map.mpr ⟨q, hq, rfl⟩) _
    (by simp) heq, ?_⟩
  cases outcome with
  | none =>
    cases hd
    simp [decisionsAfter, setDecisions, setPayments]
  | some out =>
    obtain ⟨rfl, -, -⟩ := insertDecision_ok hd
    simp [decisionsAfter]

/-- An authorize refuses, or inserts the payment its decision describes. -/
theorem authorizeOnce_cases (t : TenantId) (r : PaymentRequestId) (o : OrderId) (m : Money)
    (mt : PaymentMethodType) (d : Decision) (db : Db) :
    (∃ e, authorizeOnce t r o m mt d db = .error (.rpc e)) ∨
    (∃ msg, authorizeOnce t r o m mt d db = .error (.illegalState msg)) ∨
    ∃ order status p,
      lockOrder db t o = some order ∧ (order.status = .pending ∨ order.status = .confirmed) ∧
      order.totalMinor = m.amountMinor ∧
      (∀ p ∈ db.payment.payments, p.tenantId = t → p.orderId = o → isActive p = false) ∧
      databaseStatus d = .ok status ∧
      p = newPayment db t r o m mt d status (providerDecisionOutcome d) ∧
      authorizeOnce t r o m mt d db =
        (insertPayment db p (providerDecisionOutcome d)).map fun db' =>
          ((⟨d.operationStatus, toRecord ⟨p, p.authorizedAt⟩, operationFailureReason d⟩,
            m.amountMinor), db') := by
  unfold authorizeOnce
  split
  · exact .inl ⟨_, rfl⟩
  · rename_i order horder
    split
    · exact .inl ⟨_, rfl⟩
    · rename_i hstatus
      split
      · exact .inl ⟨_, rfl⟩
      · rename_i htotal
        split
        · exact .inl ⟨_, rfl⟩
        · split
          · exact .inl ⟨_, rfl⟩
          · rename_i hnone
            cases hst : databaseStatus d with
            | error e =>
              refine .inr (.inl ?_)
              revert hst
              unfold databaseStatus
              split <;> intro hst <;> cases hst
              all_goals exact ⟨_, rfl⟩
            | ok status =>
              refine .inr (.inr ⟨order, status, _, horder, ?_, not_not.mp htotal,
                findByMerchantReference_none hnone, rfl, rfl, ?_⟩)
              · by_contra hc
                exact hstatus (not_or.mp hc)
              · simp only [insertPayment, bind, Except.bind, pure, Except.pure]
                cases writePayments db _ with
                | error e => rfl
                | ok db₁ =>
                  simp only
                  cases recordDecision db₁ _ _ <;> rfl

/-- A capture refuses, or rewrites the row of the payment it names. -/
theorem captureOnce_cases (t : TenantId) (id : PaymentId) (m : Option Money) (db : Db) :
    (∃ e, captureOnce t id m db = .error (.rpc e)) ∨
    ∃ p ∈ db.payment.payments, ∃ amount : Int,
      p.tenantId = t ∧ p.id = id ∧ (paymentRow db p).hasProviderDecisionProof = true ∧
      (p.status = .authorized ∨ p.status = .partiallyRefunded ∨ p.status = .refunded) ∧
      0 < amount ∧ p.capturedAmountMinor + amount ≤ p.amountMinor ∧
      (∀ money, m = some money → money.amountMinor = amount ∧ money.currency = p.currency) ∧
      captureOnce t id m db =
        (writePayments db (updateWhere (isRow t id)
          (applyCapture db.now (p.capturedAmountMinor + amount)) db.payment.payments)).map
          fun db' => ((succeededResponse { paymentRow db p with
            row := applyCapture db.now (p.capturedAmountMinor + amount) p }, amount), db') := by
  unfold captureOnce
  split
  · exact .inl ⟨_, rfl⟩
  · rename_i r hr
    obtain ⟨hmem, ht, hid, hrow⟩ := findPayment_some hr
    split
    · exact .inl ⟨_, rfl⟩
    · rename_i hcap
      split
      · exact .inl ⟨_, rfl⟩
      · rename_i hcur
        dsimp only
        split
        · exact .inl ⟨_, rfl⟩
        · rename_i hamt
          have hcap' : isCaptureable r = true := by simpa using hcap
          unfold isCaptureable at hcap'
          split at hcap'
          · cases hcap'
          rw [Bool.and_eq_true] at hcap'
          obtain ⟨hproof, hst⟩ := hcap'
          rw [not_or] at hamt
          refine .inr ⟨r.row, hmem, (m.map (·.amountMinor)).getD
            (r.row.amountMinor - r.row.capturedAmountMinor), ht, hid, ?_, ?_, by omega, by omega,
            ?_, ?_⟩
          · rw [← hrow]
            exact hproof
          · revert hst
            cases r.row.status <;> simp
          · rintro money rfl
            simp only [Option.any_some, ne_eq, decide_not, Bool.not_eq_true',
              decide_eq_false_iff_not, not_not] at hcur
            exact ⟨rfl, hcur⟩
          · rw [← hrow]
            simp only [updatePayment, bind, Except.bind, pure, Except.pure]
            cases writePayments db _ <;> rfl

/-- A void refuses, or rewrites the row of the payment it names. -/
theorem voidOnce_cases (t : TenantId) (id : PaymentId) (db : Db) :
    (∃ e, voidOnce t id db = .error (.rpc e)) ∨
    ∃ p ∈ db.payment.payments,
      p.tenantId = t ∧ p.id = id ∧ (paymentRow db p).hasProviderDecisionProof = true ∧
      p.status = .authorized ∧ p.capturedAmountMinor = 0 ∧
      voidOnce t id db =
        (writePayments db (updateWhere (isRow t id) applyVoid db.payment.payments)).map
          fun db' =>
            ((succeededResponse { paymentRow db p with row := applyVoid p }, 0), db') := by
  unfold voidOnce
  split
  · exact .inl ⟨_, rfl⟩
  · rename_i r hr
    obtain ⟨hmem, ht, hid, hrow⟩ := findPayment_some hr
    split
    · exact .inl ⟨_, rfl⟩
    · rename_i hguard
      simp only [not_or, not_not, Bool.not_eq_false] at hguard
      obtain ⟨hst, hproof, hzero⟩ := hguard
      refine .inr ⟨r.row, hmem, ht, hid, by rw [← hrow]; exact hproof, hst, hzero, ?_⟩
      rw [← hrow]
      simp only [updatePayment, bind, Except.bind, pure, Except.pure]
      cases writePayments db _ <;> rfl

/-- A refund refuses, or rewrites the row of the payment it names. -/
theorem refundOnce_cases (t : TenantId) (id : PaymentId) (m : Money) (db : Db) :
    (∃ e, refundOnce t id m db = .error (.rpc e)) ∨
    ∃ p ∈ db.payment.payments,
      p.tenantId = t ∧ p.id = id ∧ (paymentRow db p).hasProviderDecisionProof = true ∧
      settledStatus p.status = true ∧
      0 < m.amountMinor ∧ p.refundedAmountMinor + m.amountMinor ≤ p.capturedAmountMinor ∧
      refundOnce t id m db =
        (writePayments db (updateWhere (isRow t id)
          (applyRefund (p.refundedAmountMinor + m.amountMinor)) db.payment.payments)).map
          fun db' => ((succeededResponse { paymentRow db p with
            row := applyRefund (p.refundedAmountMinor + m.amountMinor) p }, m.amountMinor),
            db') := by
  unfold refundOnce
  split
  · exact .inl ⟨_, rfl⟩
  · rename_i r hr
    obtain ⟨hmem, ht, hid, hrow⟩ := findPayment_some hr
    dsimp only
    split
    · exact .inl ⟨_, rfl⟩
    · rename_i hguard
      split
      · exact .inl ⟨_, rfl⟩
      · split
        · exact .inl ⟨_, rfl⟩
        · rename_i hamt
          rw [not_or] at hguard hamt
          have href : isRefundable r = true := by simpa using hguard.1
          unfold isRefundable at href
          rw [Bool.and_eq_true] at href
          refine .inr ⟨r.row, hmem, ht, hid, by rw [← hrow]; exact href.1, href.2,
            by omega, by omega, ?_⟩
          rw [← hrow]
          simp only [updatePayment, bind, Except.bind, pure, Except.pure]
          cases writePayments db _ <;> rfl

/-! ## The shapes of a store transaction -/

/-- What a first-time request does to the tables before it is recorded. -/
inductive ActionEffect (q : Request) (db : Db) (res : OperationResult) : Db → Prop where
  /-- A new payment, with the provider's decision when there is one. -/
  | authorize {o : OrderId} {m : Money} {mt : PaymentMethodType} {token : PaymentToken}
      {order : Order} {status : PaymentStatus} {p : Payment}
      (hmessage : q.message = .authorize o m mt token)
      (horder : lockOrder db q.tenantId o = some order)
      (hpayable : order.status = .pending ∨ order.status = .confirmed)
      (htotal : order.totalMinor = m.amountMinor)
      (hinactive : ∀ p ∈ db.payment.payments,
        p.tenantId = q.tenantId → p.orderId = o → isActive p = false)
      (hstatus : databaseStatus (forMethod token) = .ok status)
      (hp : p = newPayment db q.tenantId q.requestId o m mt (forMethod token) status
        (providerDecisionOutcome (forMethod token)))
      (hfresh : ∀ r ∈ db.payment.payments, r.id ≠ p.id)
      (hresponse : res.1.payment = toRecord ⟨p, p.authorizedAt⟩)
      (hoperation : res.1.operationStatus = (forMethod token).operationStatus)
      (hamount : res.2 = m.amountMinor) :
      ActionEffect q db res
        (setDecisions (setPayments db (db.payment.payments ++ [p]))
          (decisionsAfter db p (providerDecisionOutcome (forMethod token))))
  /-- More of the authorization is captured. -/
  | capture {p : Payment} {m : Option Money} {amount : Int}
      (hmessage : q.message = .capture p.id m)
      (hmem : p ∈ db.payment.payments) (htenant : p.tenantId = q.tenantId)
      (hproof : (paymentRow db p).hasProviderDecisionProof = true)
      (hstatus : p.status = .authorized ∨ p.status = .partiallyRefunded ∨ p.status = .refunded)
      (hpos : 0 < amount) (hle : p.capturedAmountMinor + amount ≤ p.amountMinor)
      (hmoney : ∀ money, m = some money →
        money.amountMinor = amount ∧ money.currency = p.currency)
      (hresponse : res.1 = succeededResponse { paymentRow db p with
        row := applyCapture db.now (p.capturedAmountMinor + amount) p })
      (hamount : res.2 = amount) :
      ActionEffect q db res (setPayments db (updateWhere (isRow q.tenantId p.id)
        (applyCapture db.now (p.capturedAmountMinor + amount)) db.payment.payments))
  /-- An uncaptured authorization is released. -/
  | void {p : Payment} {reason : VoidReason}
      (hmessage : q.message = .void p.id reason)
      (hmem : p ∈ db.payment.payments) (htenant : p.tenantId = q.tenantId)
      (hproof : (paymentRow db p).hasProviderDecisionProof = true)
      (hstatus : p.status = .authorized) (hzero : p.capturedAmountMinor = 0)
      (hresponse : res.1 = succeededResponse { paymentRow db p with row := applyVoid p })
      (hamount : res.2 = 0) :
      ActionEffect q db res
        (setPayments db (updateWhere (isRow q.tenantId p.id) applyVoid db.payment.payments))
  /-- Captured funds are returned. -/
  | refund {p : Payment} {m : Money} {reason : RefundReason}
      (hmessage : q.message = .refund p.id m reason)
      (hmem : p ∈ db.payment.payments) (htenant : p.tenantId = q.tenantId)
      (hproof : (paymentRow db p).hasProviderDecisionProof = true)
      (hstatus : settledStatus p.status = true)
      (hpos : 0 < m.amountMinor)
      (hle : p.refundedAmountMinor + m.amountMinor ≤ p.capturedAmountMinor)
      (hresponse : res.1 = succeededResponse { paymentRow db p with
        row := applyRefund (p.refundedAmountMinor + m.amountMinor) p })
      (hamount : res.2 = m.amountMinor) :
      ActionEffect q db res (setPayments db (updateWhere (isRow q.tenantId p.id)
        (applyRefund (p.refundedAmountMinor + m.amountMinor)) db.payment.payments))

theorem action_ok {q : Request} {db db' : Db} {res : OperationResult}
    (h : action q db = .ok (res, db')) : ActionEffect q db res db' := by
  cases hm : q.message with
  | authorize o m mt token =>
    simp only [action, hm] at h
    obtain ⟨e, he⟩ | ⟨msg, he⟩ | ⟨order, status, p, horder, hpay, htotal, hinact, hst,
      hp, heq⟩ := authorizeOnce_cases q.tenantId q.requestId o m mt (forMethod token) db
    · cases he.symm.trans h
    · cases he.symm.trans h
    · obtain ⟨db₁, hi, hres⟩ := map_ok (heq.symm.trans h)
      obtain ⟨hfresh, rfl⟩ := insertPayment_ok hi
      cases hres
      exact .authorize hm horder hpay htotal hinact hst hp hfresh rfl rfl rfl
  | capture id m =>
    simp only [action, hm] at h
    obtain ⟨e, he⟩ | ⟨p, hmem, amount, ht, rfl, hproof, hst, hpos, hle, hmoney, heq⟩ :=
      captureOnce_cases q.tenantId id m db
    · cases he.symm.trans h
    · obtain ⟨db₁, hw, hres⟩ := map_ok (heq.symm.trans h)
      obtain ⟨rfl, -, -, -⟩ := writePayments_ok hw
      cases hres
      exact .capture hm hmem ht hproof hst hpos hle hmoney rfl rfl
  | void id reason =>
    simp only [action, hm] at h
    obtain ⟨e, he⟩ | ⟨p, hmem, ht, rfl, hproof, hst, hzero, heq⟩ :=
      voidOnce_cases q.tenantId id db
    · cases he.symm.trans h
    · obtain ⟨db₁, hw, hres⟩ := map_ok (heq.symm.trans h)
      obtain ⟨rfl, -, -, -⟩ := writePayments_ok hw
      cases hres
      exact .void hm hmem ht hproof hst hzero rfl rfl
  | refund id m reason =>
    simp only [action, hm] at h
    obtain ⟨e, he⟩ | ⟨p, hmem, ht, rfl, hproof, hst, hpos, hle, heq⟩ :=
      refundOnce_cases q.tenantId id m db
    · cases he.symm.trans h
    · obtain ⟨db₁, hw, hres⟩ := map_ok (heq.symm.trans h)
      obtain ⟨rfl, -, -, -⟩ := writePayments_ok hw
      cases hres
      exact .refund hm hmem ht hproof hst hpos hle rfl rfl

/-! ## Reconciliation -/

/-- The columns of a payment that no statement rewrites. -/
structure SameIdentity (p p' : Payment) : Prop where
  id : p'.id = p.id
  tenantId : p'.tenantId = p.tenantId
  orderId : p'.orderId = p.orderId
  provider : p'.provider = p.provider
  providerReference : p'.providerReference = p.providerReference
  amountMinor : p'.amountMinor = p.amountMinor
  currency : p'.currency = p.currency

theorem SameIdentity.refl (p : Payment) : SameIdentity p p := ⟨rfl, rfl, rfl, rfl, rfl, rfl, rfl⟩

theorem SameIdentity.trans {p q r : Payment} (h₁ : SameIdentity p q) (h₂ : SameIdentity q r) :
    SameIdentity p r :=
  ⟨h₂.id.trans h₁.id, h₂.tenantId.trans h₁.tenantId, h₂.orderId.trans h₁.orderId,
    h₂.provider.trans h₁.provider, h₂.providerReference.trans h₁.providerReference,
    h₂.amountMinor.trans h₁.amountMinor, h₂.currency.trans h₁.currency⟩

theorem SameIdentity.decisionMatches {p p' : Payment} (h : SameIdentity p p')
    (d : ProviderDecision) : decisionMatches d p' = decisionMatches d p := by
  simp [PaymentStore.decisionMatches, h.id, h.tenantId, h.provider, h.providerReference,
    h.amountMinor, h.currency]

/-- A checkout job that waits for this authorize request and this payment. -/
def Wakes (p : Payment) (requestId : PaymentRequestId) (r : Reconciliation) : Prop :=
  r.tenantId = p.tenantId ∧ requestId = .authorize r.requestId ∧
    r.authorizeRequestId = requestId ∧
    (r.status = .awaitingProvider ∨ r.status = .queued) ∧
    (r.paymentId = none ∨ r.paymentId = some p.id)

/-- The checkout jobs a resolved payment wakes: those that wait for exactly
this authorize request and this payment. -/
theorem requeueCheckoutReconciliation_ok {db db' : Db} {pending : PendingPayment}
    (h : requeueCheckoutReconciliation db pending = .ok db') :
    ∃ sel : Reconciliation → Bool,
      (∀ r, sel r = true → Wakes pending.row pending.requestId r) ∧
      (∀ rid, checkoutRequestId pending.requestId = some rid →
        db.checkout.reconciliations.any
          (awaitsAuthorize pending.row.tenantId rid pending.requestId) = true →
        ∃ r ∈ db.checkout.reconciliations, sel r = true) ∧
      db' = setReconciliations db (updateWhere sel (requeued db.now pending.row.id)
        db.checkout.reconciliations) := by
  unfold requeueCheckoutReconciliation at h
  split at h
  · rename_i hnone
    refine ⟨fun _ => false, by simp, fun rid hrid => ?_, ?_⟩
    · rw [hnone] at hrid
      cases hrid
    · cases h
      rw [updateWhere_eq_self (by simp)]
      rfl
  · rename_i rid hrid
    simp only at h
    split at h
    · cases h
    · rename_i hconflict
      cases h
      refine ⟨_, ?_, ?_, rfl⟩
      rotate_left
      · intro rid' hrid' hany
        rw [hrid] at hrid'
        cases hrid'
        rw [not_and] at hconflict
        exact exists_of_affected_ne_zero fun hzero => hconflict hzero hany
      intro r hr
      simp only [awaitsAuthorize, Bool.and_eq_true, decide_eq_true_eq] at hr
      obtain ⟨⟨ht, hreq, hauth, hst⟩, hpay⟩ := hr
      have hauthorize : pending.requestId = .authorize rid := by
        unfold checkoutRequestId at hrid
        split at hrid
        · rename_i r' hr'
          split at hrid
          · cases hrid
          · cases hrid
            exact hr'
        · cases hrid
      exact ⟨ht, by rw [hreq]; exact hauthorize, hauth, hst, hpay⟩

/-- The ledger row of the authorize request that created a payment. -/
def Authorizes (p : Payment) (requestId : PaymentRequestId) (o : StoredOperation) : Prop :=
  o.tenantId = p.tenantId ∧ o.paymentId = some p.id ∧ o.operation = .authorize ∧
    o.requestId = requestId

/-- What a transaction was asked to work on: the requests that it may carry out
for the first time, and the payments whose provider decision it may apply. -/
structure Scope where
  requests : Request → Prop
  payments : TenantId → PaymentId → Bool

/-- A transaction that only looks at one payment. -/
def Scope.payment (tenantId : TenantId) (id : PaymentId) : Scope where
  requests := fun _ => False
  payments := fun t i => decide (t = tenantId ∧ i = id)

theorem Scope.payment_self (t : TenantId) (id : PaymentId) :
    (Scope.payment t id).payments t id = true := by
  simp [Scope.payment]

/-- What a committed store transaction did, within its scope: the requests that
took effect, or were refused, for the first time, and the payment resolved. -/
inductive Effect (Q : Scope) (db : Db) : Db → Prop where
  /-- A replay or a read: nothing changed. -/
  | refl : Effect Q db db
  /-- A first-time request took effect and was recorded. -/
  | act {q : Request} {res : OperationResult} {db₁ : Db} (hq : Q.requests q)
      (hvalid : validate q = none)
      (hnew : findStoredOperation db q.tenantId q.requestId = none)
      (hact : ActionEffect q db res db₁) :
      Effect Q db (setOperations db₁ (db₁.payment.operations ++ [storedSuccess q res]))
  /-- A first-time request was refused, and the refusal recorded. -/
  | refuse {q : Request} {e : PaymentRpcException} (hq : Q.requests q)
      (hnew : findStoredOperation db q.tenantId q.requestId = none) :
      Effect Q db (setOperations db (db.payment.operations ++ [storedFailure q e]))
  /-- A pending payment without a provider decision was quarantined. -/
  | quarantine {p : Payment} (hmem : p ∈ db.payment.payments) (hpending : p.status = .pending) :
      Effect Q db (setPayments db
        (updateWhere (isPendingRow p.tenantId p.id) PaymentStore.quarantine db.payment.payments))
  /-- A pending payment was resolved by its provider decision. -/
  | resolve {p : Payment} {requestId : PaymentRequestId} {d : ProviderDecision}
      {sel : Reconciliation → Bool}
      (hmem : p ∈ db.payment.payments) (hpending : p.status = .pending)
      (hop : ∃ o ∈ db.payment.operations, Authorizes p requestId o)
      (hdecision : d ∈ db.payment.decisions) (hmatch : decisionMatches d p = true)
      (hsel : ∀ r, sel r = true → Wakes p requestId r)
      (hall : ∀ rid, checkoutRequestId requestId = some rid →
        db.checkout.reconciliations.any (awaitsAuthorize p.tenantId rid requestId) = true →
        ∃ r ∈ db.checkout.reconciliations, sel r = true)
      (hq : Q.payments p.tenantId p.id = true) :
      Effect Q db (setReconciliations
        (setOperations
          (setPayments db (updateWhere (isPendingRow p.tenantId p.id)
            (resolvePayment db.now d) db.payment.payments))
          (updateWhere (storesAuthorizeResponse p.tenantId requestId)
            (resolveOperation d p p.amountMinor) db.payment.operations))
        (updateWhere sel (requeued db.now p.id) db.checkout.reconciliations))

variable {Q : Scope}

theorem reconcilePending_effect {pending : PendingPayment} {r : PaymentRow} {db db' : Db}
    {n : Nat} (h : reconcilePending pending r db = .ok (n, db'))
    (hmem : r.row ∈ db.payment.payments) (hsame : SameIdentity pending.row r.row)
    (hop : ∃ o ∈ db.payment.operations, Authorizes r.row pending.requestId o)
    (hq : Q.payments pending.row.tenantId pending.row.id = true) : Effect Q db db' := by
  unfold reconcilePending at h
  split at h
  · cases h
    exact .refl
  · rename_i hpending
    have hpending' : r.row.status = .pending := not_not.mp hpending
    have ht : pending.row.tenantId = r.row.tenantId := hsame.tenantId.symm
    have hid : pending.row.id = r.row.id := hsame.id.symm
    split at h
    · obtain ⟨db₁, hw, h₁⟩ := bind_ok h
      cases h₁
      obtain ⟨rfl, -, -, -⟩ := writePayments_ok hw
      rw [ht, hid]
      exact .quarantine hmem hpending'
    · rename_i d hlookup
      obtain ⟨db₁, hw, h₁⟩ := bind_ok h
      obtain ⟨rfl, -, -, -⟩ := writePayments_ok hw
      obtain ⟨hd, hdm⟩ := find?_some_spec hlookup
      split at h₁
      · -- unreachable: the row just read is the pending row
        rename_i hzero
        have := affected_eq_zero hzero r.row hmem
        simp [isPendingRow, hsame.tenantId, hsame.id, hpending'] at this
      · dsimp only at h₁
        split at h₁
        · cases h₁
        · obtain ⟨db₃, hqueue, h₂⟩ := bind_ok h₁
          cases h₂
          obtain ⟨sel, hsel, hall, rfl⟩ := requeueCheckoutReconciliation_ok hqueue
          have hsel' : ∀ rec, sel rec = true → Wakes r.row pending.requestId rec := by
            intro rec hrec
            have := hsel rec hrec
            unfold Wakes at this ⊢
            rw [ht, hid] at this
            exact this
          simp only [ht, hid, ← hsame.amountMinor]
          rw [ht] at hall
          rw [ht, hid] at hq
          exact .resolve hmem hpending' hop hd
            (by rw [hsame.decisionMatches d]; exact hdm) hsel' hall hq

/-! ## Every transaction is a sequence of effects -/

theorem sameIdentity_resolve (now : Nat) (d : ProviderDecision) (p : Payment) :
    SameIdentity p (resolvePayment now d p) := ⟨rfl, rfl, rfl, rfl, rfl, rfl, rfl⟩

/-- Payments keep their identity columns through every effect. -/
theorem Effect.payments_evolve {db db' : Db} (h : Effect Q db db') :
    Evolves SameIdentity db.payment.payments db'.payment.payments := by
  cases h with
  | refl => exact Evolves.refl SameIdentity.refl _
  | act _ _ _ hact =>
    cases hact with
    | authorize => exact Evolves.insert SameIdentity.refl _ _
    | capture => exact Evolves.update SameIdentity.refl fun _ _ _ => ⟨rfl, rfl, rfl, rfl, rfl, rfl, rfl⟩
    | void => exact Evolves.update SameIdentity.refl fun _ _ _ => ⟨rfl, rfl, rfl, rfl, rfl, rfl, rfl⟩
    | refund => exact Evolves.update SameIdentity.refl fun _ _ _ => ⟨rfl, rfl, rfl, rfl, rfl, rfl, rfl⟩
  | refuse => exact Evolves.refl SameIdentity.refl _
  | quarantine => exact Evolves.update SameIdentity.refl fun _ _ _ => ⟨rfl, rfl, rfl, rfl, rfl, rfl, rfl⟩
  | resolve => exact Evolves.update SameIdentity.refl fun p _ _ => sameIdentity_resolve _ _ p

/-- The payment ids stay unique: an authorize only inserts a fresh one. -/
theorem Effect.keyUnique {db db' : Db} (h : Effect Q db db')
    (hu : KeyUnique (·.id) db.payment.payments) : KeyUnique (·.id) db'.payment.payments := by
  cases h with
  | refl => exact hu
  | act _ _ _ hact =>
    cases hact with
    | authorize _ _ _ _ _ _ _ hfresh => exact hu.append_singleton hfresh
    | capture => exact hu.updateWhere fun _ _ _ => rfl
    | void => exact hu.updateWhere fun _ _ _ => rfl
    | refund => exact hu.updateWhere fun _ _ _ => rfl
  | refuse => exact hu
  | quarantine => exact hu.updateWhere fun _ _ _ => rfl
  | resolve => exact hu.updateWhere fun _ _ _ => rfl

/-- The columns of a ledger row that no statement rewrites. -/
structure SameOperation (o o' : StoredOperation) : Prop where
  tenantId : o'.tenantId = o.tenantId
  requestId : o'.requestId = o.requestId
  operation : o'.operation = o.operation
  requestFingerprint : o'.requestFingerprint = o.requestFingerprint
  paymentId : o'.paymentId = o.paymentId

theorem SameOperation.refl (o : StoredOperation) : SameOperation o o :=
  ⟨rfl, rfl, rfl, rfl, rfl⟩

theorem SameOperation.trans {a b c : StoredOperation} (h₁ : SameOperation a b)
    (h₂ : SameOperation b c) : SameOperation a c :=
  ⟨h₂.tenantId.trans h₁.tenantId, h₂.requestId.trans h₁.requestId,
    h₂.operation.trans h₁.operation, h₂.requestFingerprint.trans h₁.requestFingerprint,
    h₂.paymentId.trans h₁.paymentId⟩

/-- Ledger rows are never deleted and keep their request through every effect. -/
theorem Effect.operations_evolve {db db' : Db} (h : Effect Q db db') :
    Evolves SameOperation db.payment.operations db'.payment.operations := by
  cases h with
  | refl => exact Evolves.refl SameOperation.refl _
  | act _ _ _ hact => cases hact <;> exact Evolves.insert SameOperation.refl _ _
  | refuse => exact Evolves.insert SameOperation.refl _ _
  | quarantine => exact Evolves.refl SameOperation.refl _
  | resolve => exact Evolves.update SameOperation.refl fun _ _ _ => ⟨rfl, rfl, rfl, rfl, rfl⟩

/-- Sequences of effects. -/
inductive Effects (Q : Scope) (db : Db) : Db → Prop where
  | refl : Effects Q db db
  | tail {db₁ db₂ : Db} : Effects Q db db₁ → Effect Q db₁ db₂ → Effects Q db db₂

theorem Effect.toEffects {db db' : Db} (h : Effect Q db db') : Effects Q db db' := .tail .refl h

theorem Effects.trans {a b c : Db} (h₁ : Effects Q a b) (h₂ : Effects Q b c) : Effects Q a c := by
  induction h₂ with
  | refl => exact h₁
  | tail _ he ih => exact .tail ih he

/-- Payment writes nothing of inventory. -/
theorem Effect.inventory {db db' : Db} (h : Effect Q db db') : db'.inventory = db.inventory := by
  cases h with
  | act hq hvalid hnew hact => cases hact <;> rfl
  | refl | refuse | quarantine | resolve => rfl

/-- What every effect preserves, every sequence of effects preserves. -/
theorem Effects.invariant {I : Db → Prop} {db db' : Db} (h : Effects Q db db') (h0 : I db)
    (hstep : ∀ a b, I a → Effect Q a b → I b) : I db' := by
  induction h with
  | refl => exact h0
  | tail _ he ih => exact hstep _ _ ih he

/-- A reflexive, transitive relation that every effect from an invariant state
respects relates the ends of a sequence of effects. -/
theorem Effects.relates {I : Db → Prop} {R : Db → Db → Prop} {db db' : Db}
    (h : Effects Q db db') (h0 : I db) (hstep : ∀ a b, I a → Effect Q a b → I b)
    (hrefl : ∀ a, R a a) (htrans : ∀ a b c, R a b → R b c → R a c)
    (hR : ∀ a b, I a → Effect Q a b → R a b) : R db db' := by
  induction h with
  | refl => exact hrefl _
  | tail hr he ih => exact htrans _ _ _ ih (hR _ _ (hr.invariant h0 hstep) he)

theorem findPendingPayment_some {db : Db} {t : TenantId} {id : PaymentId} {c : PendingPayment}
    (h : findPendingPayment db t id = some c) :
    c.row ∈ db.payment.payments ∧ c.row.tenantId = t ∧ c.row.id = id ∧
      db.payment.payments.find? (isRow t id) = some c.row ∧
      ∃ o ∈ db.payment.operations, Authorizes c.row c.requestId o := by
  unfold findPendingPayment at h
  split at h
  · cases h
  · rename_i p hp
    split at h
    · cases h
    · rename_i o ho
      split at h
      · cases h
        obtain ⟨hmem, hkey⟩ := find?_some_spec hp
        obtain ⟨ht, hid⟩ := isRow_iff.mp hkey
        obtain ⟨homem, hokey⟩ := find?_some_spec ho
        obtain ⟨h1, h2, h3⟩ := of_decide_eq_true hokey
        exact ⟨hmem, ht, hid, hp, o, homem, h1, h2, h3, rfl⟩
      · cases h

theorem reconcilePendingPayment_effect {t : TenantId} {id : PaymentId} {db db' : Db} {n : Nat}
    (h : reconcilePendingPayment t id db = .ok (n, db')) (hq : Q.payments t id = true) :
    Effect Q db db' := by
  unfold reconcilePendingPayment at h
  split at h
  · cases h
    exact .refl
  · rename_i c hc
    obtain ⟨hmem, ht, hid, hfind, hop⟩ := findPendingPayment_some hc
    split at h
    · cases h
      exact .refl
    · rename_i r hr
      have hrow : r.row = c.row := by
        unfold findPayment at hr
        rw [hfind] at hr
        cases hr
        rfl
      exact reconcilePending_effect h (by rw [hrow]; exact hmem)
        (by rw [hrow]; exact SameIdentity.refl _) (by rw [hrow]; exact hop)
        (by rw [ht, hid]; exact hq)

/-- The row read for a candidate of the batch is the candidate's own payment. -/
theorem candidate_row {db : Db} {c : PendingPayment} {p : Payment}
    (hkeys : KeyUnique (·.id) db.payment.payments)
    (hrow : ∃ q ∈ db.payment.payments, SameIdentity c.row q)
    (hop : ∃ o ∈ db.payment.operations, Authorizes c.row c.requestId o)
    (hmem : p ∈ db.payment.payments) (ht : p.tenantId = c.row.tenantId)
    (hid : p.id = c.row.id) :
    SameIdentity c.row p ∧ ∃ o ∈ db.payment.operations, Authorizes p c.requestId o := by
  obtain ⟨q, hq, hsame⟩ := hrow
  have hqp : q = p := hkeys.eq_of_mem hq hmem (hsame.id.trans hid.symm)
  subst hqp
  obtain ⟨o, ho, h1, h2, h3, h4⟩ := hop
  exact ⟨hsame, o, ho, h1.trans ht.symm, by rw [h2, hid], h3, h4⟩

/-- Candidates keep their payments through an effect. -/
theorem Effect.candidates_rows {db db' : Db} {cs : List PendingPayment} (h : Effect Q db db')
    (hrows : ∀ c ∈ cs, ∃ p ∈ db.payment.payments, SameIdentity c.row p) :
    ∀ c ∈ cs, ∃ p ∈ db'.payment.payments, SameIdentity c.row p := by
  intro c hc
  obtain ⟨p, hp, hs⟩ := hrows c hc
  obtain ⟨p', hp', hs'⟩ := h.payments_evolve p hp
  exact ⟨p', hp', hs.trans hs'⟩

/-- Candidates keep their ledger rows through an effect. -/
theorem Effect.candidates_ops {db db' : Db} {cs : List PendingPayment} (h : Effect Q db db')
    (hops : ∀ c ∈ cs, ∃ o ∈ db.payment.operations, Authorizes c.row c.requestId o) :
    ∀ c ∈ cs, ∃ o ∈ db'.payment.operations, Authorizes c.row c.requestId o := by
  intro c hc
  obtain ⟨o, ho, h1, h2, h3, h4⟩ := hops c hc
  obtain ⟨o', ho', hs⟩ := h.operations_evolve o ho
  exact ⟨o', ho', hs.tenantId.trans h1, hs.paymentId.trans h2, hs.operation.trans h3,
    hs.requestId.trans h4⟩

/-- Processing a batch: the candidates were read at the start, and each one
still has its payment and its ledger row when its turn comes. -/
theorem reconcileAll_effects {cs : List PendingPayment} {db db' : Db} {n : Nat}
    (h : reconcileAll cs db = .ok (n, db'))
    (hkeys : KeyUnique (·.id) db.payment.payments)
    (hrows : ∀ c ∈ cs, ∃ p ∈ db.payment.payments, SameIdentity c.row p)
    (hops : ∀ c ∈ cs, ∃ o ∈ db.payment.operations, Authorizes c.row c.requestId o)
    (hq : ∀ c ∈ cs, Q.payments c.row.tenantId c.row.id = true) : Effects Q db db' := by
  induction cs generalizing db n with
  | nil =>
    cases h
    exact .refl
  | cons c cs ih =>
    have hrows' : ∀ c' ∈ cs, ∃ p ∈ db.payment.payments, SameIdentity c'.row p :=
      fun c' hc' => hrows c' (by simp [hc'])
    have hops' : ∀ c' ∈ cs, ∃ o ∈ db.payment.operations, Authorizes c'.row c'.requestId o :=
      fun c' hc' => hops c' (by simp [hc'])
    have hq' : ∀ c' ∈ cs, Q.payments c'.row.tenantId c'.row.id = true :=
      fun c' hc' => hq c' (by simp [hc'])
    unfold reconcileAll at h
    split at h
    · rename_i r hr
      split at h
      · obtain ⟨⟨k, db₁⟩, h₁, h₂⟩ := bind_ok h
        obtain ⟨⟨m, db₂⟩, h₃, h₄⟩ := bind_ok h₂
        cases h₄
        obtain ⟨hmem, ht, hid, -⟩ := findPayment_some hr
        obtain ⟨hsame, hop⟩ :=
          candidate_row hkeys (hrows c (by simp)) (hops c (by simp)) hmem ht hid
        have heff : Effect Q db db₁ :=
          reconcilePending_effect h₁ hmem hsame hop (hq c (by simp))
        exact heff.toEffects.trans (ih h₃ (heff.keyUnique hkeys) (heff.candidates_rows hrows')
          (heff.candidates_ops hops') hq')
      · exact ih h hkeys hrows' hops' hq'
    · exact ih h hkeys hrows' hops' hq'

theorem reconciliationCandidate_some {db : Db} {key : TenantId × PaymentId} {c : PendingPayment}
    (h : reconciliationCandidate db key = some c) :
    c.row ∈ db.payment.payments ∧ (c.row.tenantId, c.row.id) = key ∧
      ∃ o ∈ db.payment.operations, Authorizes c.row c.requestId o := by
  unfold reconciliationCandidate at h
  split at h
  · cases h
  · rename_i p hp
    split at h
    · cases h
    · rename_i o ho
      split at h
      · cases h
        obtain ⟨homem, hokey⟩ := find?_some_spec ho
        obtain ⟨h1, h2, h3⟩ := of_decide_eq_true hokey
        obtain ⟨hmem, hkey⟩ := find?_some_spec hp
        obtain ⟨ht, hid⟩ := isRow_iff.mp hkey
        exact ⟨hmem, Prod.ext ht hid, o, homem, h1, h2, h3, rfl⟩
      · cases h

/-- The candidates of a batch, as they are when the batch starts. -/
theorem batch_rows {n : Nat} {keys : List (TenantId × PaymentId)} {db : Db} {c : PendingPayment}
    (h : c ∈ (keys.filterMap (reconciliationCandidate db)).take n) :
    (∃ p ∈ db.payment.payments, SameIdentity c.row p) ∧ (c.row.tenantId, c.row.id) ∈ keys ∧
      ∃ o ∈ db.payment.operations, Authorizes c.row c.requestId o := by
  obtain ⟨key, hmemk, hkey⟩ := List.mem_filterMap.mp (List.mem_of_mem_take h)
  obtain ⟨hmem, rfl, hop⟩ := reconciliationCandidate_some hkey
  exact ⟨⟨c.row, hmem, SameIdentity.refl _⟩, hmemk, hop⟩

theorem reconcilePendingPayments_effects {n m : Nat} {keys : List (TenantId × PaymentId)}
    {db db' : Db} (h : reconcilePendingPayments n keys db = .ok (m, db'))
    (hkeys : KeyUnique (·.id) db.payment.payments)
    (hq : ∀ key ∈ keys, Q.payments key.1 key.2 = true) : Effects Q db db' := by
  unfold reconcilePendingPayments at h
  split at h
  · cases h
  · exact reconcileAll_effects h hkeys (fun c hc => (batch_rows hc).1)
      (fun c hc => (batch_rows hc).2.2) (fun c hc => hq _ (batch_rows hc).2.1)

/-- The scope of a request: itself, or the payment its stored outcome names. -/
def requestScope (db : Db) (q : Request) : Scope where
  requests := fun q' => q' = q
  payments := fun t id => decide (t = q.tenantId) &&
    (findStoredOperation db q.tenantId q.requestId).any fun o => decide (o.paymentId = some id)

/-- A request that commits: one effect. -/
theorem executeIdempotently_effect {q : Request} {db db' : Db} {out : TxOutcome}
    (hvalid : validate q = none) (h : executeIdempotently q db = .ok (out, db')) :
    Effect (requestScope db q) db db' := by
  unfold executeIdempotently at h
  split at h
  · rename_i stored hstored
    split at h
    · cases h
    · split at h
      · obtain ⟨db₁, h₁, h₂⟩ := bind_ok h
        split at h₂
        · cases h₂
        · cases h₂
          unfold reconcileStoredPending at h₁
          split at h₁
          · cases h₁
            exact .refl
          · rename_i id hid
            cases hrec : reconcilePendingPayment q.tenantId id db with
            | error e =>
              rw [hrec] at h₁
              cases h₁
            | ok r =>
              rw [hrec] at h₁
              cases h₁
              exact reconcilePendingPayment_effect hrec
                (by simp [requestScope, hstored, hid])
      · cases h
        exact .refl
  · rename_i hnew
    split at h
    · rename_i result db₁ hact
      obtain ⟨db₂, hi, h₂⟩ := bind_ok h
      cases h₂
      obtain ⟨rfl, -, -⟩ := insertOperation_ok hi
      exact .act rfl hvalid hnew (action_ok hact)
    · obtain ⟨db₂, hi, h₂⟩ := bind_ok h
      cases h₂
      obtain ⟨rfl, -, -⟩ := insertOperation_ok hi
      exact .refuse rfl hnew
    · cases h

theorem getPayment_effect {t : TenantId} {id : PaymentId} {db db' : Db}
    {out : Except PaymentRpcException PaymentRecord} (h : getPayment t id db = .ok (out, db')) :
    Effect (.payment t id) db db' := by
  unfold getPayment at h
  obtain ⟨⟨n, db₁⟩, hrec, h₁⟩ := bind_ok h
  dsimp only at h₁
  cases hf : findPayment db₁ t id with
  | none =>
    rw [hf] at h₁
    cases h₁
    exact reconcilePendingPayment_effect hrec (Scope.payment_self _ _)
  | some r =>
    rw [hf] at h₁
    cases h₁
    exact reconcilePendingPayment_effect hrec (Scope.payment_self _ _)

/-! ## Steps of the service -/

/-- The scope of a step of the payment service. -/
def scope (db : Db) : Action → Scope
  | .request q => requestScope db q
  | .getPayment t id => .payment t id
  | .reconcile _ keys => ⟨fun _ => False, fun t id => keys.contains (t, id)⟩
  | .decide _ | .environment .. => ⟨fun _ => False, fun _ _ => false⟩

theorem scope_request {db : Db} {a : Action} {q : Request} (h : (scope db a).requests q) :
    a = .request q := by
  cases a with
  | request q' =>
    obtain rfl : q = q' := h
    rfl
  | getPayment | reconcile | decide | environment => exact h.elim

/-- What a step of the payment service did. -/
inductive StepEffect (db : Db) : Action → Db → Prop where
  | store {a : Action} {db' : Db} (h : Effects (scope db a) db db') : StepEffect db a db'
  | decided {d : ProviderDecision} {db' : Db} (hnow : d.verifiedAt ≤ db.now)
      (h : insertDecision db d = .ok db') : StepEffect db (.decide d) db'
  | environment (elapsed : Nat) (checkout : CheckoutTables) (inventory : InventoryTables) :
      StepEffect db (.environment elapsed checkout inventory)
        { db with now := db.now + elapsed, checkout := checkout, inventory := inventory }

theorem serve_effect (q : Request) (db : Db) :
    Effect (requestScope db q) db (serve q db).2 := by
  unfold serve
  split
  · exact .refl
  · rename_i hvalid
    split
    · exact .refl
    · cases hex : executeIdempotently q db with
      | ok r => exact executeIdempotently_effect hvalid hex
      | error e => cases e <;> exact .refl

theorem serveGetPayment_effect (t : TenantId) (id : PaymentId) (db : Db) :
    Effect (.payment t id) db (serveGetPayment t id db).2 := by
  unfold serveGetPayment
  cases hex : getPayment t id db with
  | ok r => exact getPayment_effect hex
  | error e => cases e <;> exact .refl

theorem step_effect {db db' : Db} {a : Action} (hu : KeyUnique (·.id) db.payment.payments)
    (h : step db a = some db') : StepEffect db a db' := by
  cases a with
  | request q =>
    cases h
    exact .store (serve_effect q db).toEffects
  | getPayment t id =>
    cases h
    exact .store (serveGetPayment_effect t id db).toEffects
  | reconcile n keys =>
    cases h
    cases hex : reconcilePendingPayments n keys db with
    | ok r => exact .store (reconcilePendingPayments_effects hex hu fun key hkey => by
        simpa [scope] using hkey)
    | error e => exact .store .refl
  | decide d =>
    simp only [step] at h
    split at h
    · rename_i hnow
      cases hi : insertDecision db d with
      | ok db₁ =>
        rw [hi] at h
        cases h
        exact .decided hnow hi
      | error e =>
        rw [hi] at h
        cases h
        exact .store .refl
    · cases h
  | environment elapsed checkout inventory =>
    cases h
    exact .environment elapsed checkout inventory

end CommercePlayground.PaymentStore
