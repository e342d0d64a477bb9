/-
CommercePlayground.Payment.LedgerTheorems — the idempotency ledger.

`payment_operation_requests` holds one row per (tenant, request id). The
ledger invariant ties it to `payments`: an authorize row names the payment
its request id derives and is pending exactly while that payment is, and the
captured and refunded amounts of a payment are the sums over its successful
ledger rows. From it follow the replay rules: a recorded outcome is returned
for ever, and only the row of a still-pending authorize is ever rewritten.
-/
import CommercePlayground.Payment.BalanceTheorems

namespace CommercePlayground.PaymentStore

open Lib

variable {Q : Scope}

/-! ## The invariant -/

/-- A successful ledger row of one operation on one payment. -/
def successfulRow (op : PaymentOperation) (p : Payment) (o : StoredOperation) : Bool :=
  decide (o.operation = op ∧ o.tenantId = p.tenantId ∧ o.paymentId = some p.id) &&
    match o.result with
    | .ok r => decide (r.operationStatus = .succeeded)
    | .error _ => false

/-- `operation_amount_minor`, which is null in a failure row. -/
def operationAmount (o : StoredOperation) : Int := o.operationAmountMinor.getD 0

/-- The sum of `operation_amount_minor` over the successful rows. -/
def ledgerSum (op : PaymentOperation) (p : Payment) (ops : List StoredOperation) : Int :=
  sumWhere (successfulRow op p) operationAmount ops

/-- What an authorize row says about its payment. -/
structure AuthorizeRow (db : Db) (o : StoredOperation) : Prop where
  failed : ∀ e, o.result = .error e → o.paymentId = none
  payment : ∀ r, o.result = .ok r → o.paymentId = some ⟨o.tenantId, o.requestId⟩ ∧
    ∃ p ∈ db.payment.payments, p.id = ⟨o.tenantId, o.requestId⟩ ∧
      (r.operationStatus = .pending ↔ p.status = .pending)

/-- The ledger and the payments agree. -/
structure LedgerInv (db : Db) : Prop where
  keys : KeyUnique operationKey db.payment.operations
  authorizes : ∀ o ∈ db.payment.operations, o.operation = .authorize → AuthorizeRow db o
  refers : ∀ o ∈ db.payment.operations, ∀ r id, o.result = .ok r → o.paymentId = some id →
    ∃ p ∈ db.payment.payments, p.id = id
  captured : ∀ p ∈ db.payment.payments,
    p.capturedAmountMinor = ledgerSum .capture p db.payment.operations
  refunded : ∀ p ∈ db.payment.payments,
    p.refundedAmountMinor = ledgerSum .refund p db.payment.operations

/-! ## Rows and sums -/

theorem successfulRow_congr {op : PaymentOperation} {p p' : Payment} (h : SameIdentity p p') :
    successfulRow op p' = successfulRow op p := by
  funext o
  simp [successfulRow, h.tenantId, h.id]

theorem ledgerSum_congr {op : PaymentOperation} {p p' : Payment} (h : SameIdentity p p')
    (ops : List StoredOperation) : ledgerSum op p' ops = ledgerSum op p ops := by
  unfold ledgerSum
  rw [successfulRow_congr h]

/-- A new row moves the sum by its amount when it is a successful row of the
operation and the payment, and not at all otherwise. -/
theorem ledgerSum_append (op : PaymentOperation) (p : Payment) (ops : List StoredOperation)
    (o : StoredOperation) : ledgerSum op p (ops ++ [o]) =
      ledgerSum op p ops + if successfulRow op p o then operationAmount o else 0 := by
  simp [ledgerSum]

theorem successfulRow_of_operation_ne {op : PaymentOperation} {p : Payment}
    {o : StoredOperation} (h : o.operation ≠ op) : successfulRow op p o = false := by
  simp [successfulRow, h]

theorem successfulRow_of_id_ne {op : PaymentOperation} {p : Payment} {o : StoredOperation}
    (h : o.paymentId ≠ some p.id) : successfulRow op p o = false := by
  simp [successfulRow, h]

theorem successfulRow_of_error {op : PaymentOperation} {p : Payment} {o : StoredOperation}
    {e : PaymentRpcException} (h : o.result = .error e) : successfulRow op p o = false := by
  simp [successfulRow, h]

/-- Resolving authorize rows moves no capture or refund sum. -/
theorem ledgerSum_resolve {op : PaymentOperation} {p : Payment} {ops : List StoredOperation}
    {t : TenantId} {rid : PaymentRequestId} {d : ProviderDecision} {r : Payment} {amount : Int}
    (hop : op ≠ .authorize) :
    ledgerSum op p (updateWhere (storesAuthorizeResponse t rid) (resolveOperation d r amount) ops)
      = ledgerSum op p ops := by
  refine sumWhere_updateWhere_of_eq fun o _ ho => ?_
  have hauth : o.operation = .authorize := by
    simp only [storesAuthorizeResponse, Bool.and_eq_true, decide_eq_true_eq] at ho
    exact ho.1.2.2
  have h1 : successfulRow op p o = false :=
    successfulRow_of_operation_ne (by rw [hauth]; exact hop.symm)
  have h2 : successfulRow op p (resolveOperation d r amount o) = false :=
    successfulRow_of_operation_ne (by simp only [resolveOperation]; rw [hauth]; exact hop.symm)
  simp [h1, h2]

/-- With unique keys a lookup finds the row it is given the key of. -/
theorem findStoredOperation_of_mem {db : Db} {o : StoredOperation}
    (hkeys : KeyUnique operationKey db.payment.operations) (ho : o ∈ db.payment.operations) :
    findStoredOperation db o.tenantId o.requestId = some o := by
  have hfind := hkeys.find?_eq_some ho
  unfold findStoredOperation
  rw [← hfind]
  congr 1
  funext s
  simp [operationKey]

/-! ## A new ledger row -/

/-- A payments update that keeps identities and does not touch `pending`. -/
theorem AuthorizeRow.evolve {db db' : Db} {o : StoredOperation} (h : AuthorizeRow db o)
    (he : Evolves (fun p p' => SameIdentity p p' ∧ (p'.status = .pending ↔ p.status = .pending))
      db.payment.payments db'.payment.payments) : AuthorizeRow db' o := by
  refine ⟨h.failed, fun r hr => ?_⟩
  obtain ⟨hid, p, hp, hpid, hst⟩ := h.payment r hr
  obtain ⟨p', hp', hsame, hst'⟩ := he p hp
  exact ⟨hid, p', hp', hsame.id.trans hpid, hst.trans hst'.symm⟩

theorem LedgerInv.fresh {db : Db} {t : TenantId} {rid : PaymentRequestId} {o : StoredOperation}
    (h : LedgerInv db) (hnew : findStoredOperation db t rid = none)
    (ho : operationKey o = (t, rid)) :
    KeyUnique operationKey (db.payment.operations ++ [o]) := by
  refine h.keys.append_singleton fun s hs => ?_
  rw [ho]
  exact findStoredOperation_none hnew s hs

/-- A refused request is recorded and touches nothing else. -/
theorem LedgerInv.refuse {db : Db} {q : Request} {e : PaymentRpcException} (h : LedgerInv db)
    (hnew : findStoredOperation db q.tenantId q.requestId = none) :
    LedgerInv (setOperations db (db.payment.operations ++ [storedFailure q e])) where
  keys := h.fresh hnew rfl
  authorizes := by
    intro o ho hop
    rcases List.mem_append.mp ho with ho | ho
    · exact ⟨(h.authorizes o ho hop).failed, (h.authorizes o ho hop).payment⟩
    · rw [List.mem_singleton.mp ho] at hop ⊢
      refine ⟨fun _ _ => ?_, fun r hr => by cases hr⟩
      cases hm : q.message <;> simp [storedFailure, operationOf, hm] at hop
      simp [storedFailure, requestPaymentId, hm]
  refers := by
    intro o ho r id hr hid
    rcases List.mem_append.mp ho with ho | ho
    · exact h.refers o ho r id hr hid
    · rw [List.mem_singleton.mp ho] at hr
      cases hr
  captured := by
    intro p hp
    rw [setOperations_operations, ledgerSum_append, successfulRow_of_error rfl]
    simpa using h.captured p hp
  refunded := by
    intro p hp
    rw [setOperations_operations, ledgerSum_append, successfulRow_of_error rfl]
    simpa using h.refunded p hp

/-- One operation on an existing payment, recorded: the row of the payment is
rewritten, and its balances move by what the new ledger row says. -/
theorem LedgerInv.operate {db : Db} {q : Request} {res : OperationResult} {p : Payment}
    {f : Payment → Payment} (h : LedgerInv db) (hids : KeyUnique (·.id) db.payment.payments)
    (hnew : findStoredOperation db q.tenantId q.requestId = none)
    (hp : p ∈ db.payment.payments) (htenant : p.tenantId = q.tenantId)
    (hop : operationOf q.message ≠ .authorize) (hid : requestPaymentId q.message = some p.id)
    (hsucceeded : res.1.operationStatus = .succeeded)
    (hsame : ∀ r, SameIdentity r (f r))
    (hpending : p.status ≠ .pending) (hpending' : (f p).status ≠ .pending)
    (hcaptured : (f p).capturedAmountMinor =
      p.capturedAmountMinor + if operationOf q.message = .capture then res.2 else 0)
    (hrefunded : (f p).refundedAmountMinor =
      p.refundedAmountMinor + if operationOf q.message = .refund then res.2 else 0) :
    LedgerInv (setOperations
      (setPayments db (updateWhere (isRow q.tenantId p.id) f db.payment.payments))
      (db.payment.operations ++ [storedSuccess q res])) := by
  have hsel : ∀ r, isRow q.tenantId p.id r = true → r.id = p.id := fun r hr => (isRow_iff.mp hr).2
  have hevolve : Evolves
      (fun r r' => SameIdentity r r' ∧ (r'.status = .pending ↔ r.status = .pending))
      db.payment.payments (updateWhere (isRow q.tenantId p.id) f db.payment.payments) := by
    refine Evolves.update (fun r => ⟨SameIdentity.refl r, Iff.rfl⟩) fun r hr hs => ?_
    rw [hids.eq_of_mem hr hp (hsel r hs)]
    exact ⟨hsame p, iff_of_false hpending' hpending⟩
  have hrow : (storedSuccess q res).paymentId = some p.id := by simp [storedSuccess, hid]
  -- the share of the new row, by payment and operation
  have hshare : ∀ (op : PaymentOperation) (r : Payment), r.id ≠ p.id →
      successfulRow op r (storedSuccess q res) = false := by
    intro op r hr
    refine successfulRow_of_id_ne ?_
    rw [hrow]
    simpa using fun heq => hr heq.symm
  have hown : ∀ op, successfulRow op p (storedSuccess q res) =
      decide (operationOf q.message = op) := by
    intro op
    simp [successfulRow, storedSuccess, hid, htenant, hsucceeded]
  have hsum : ∀ (op : PaymentOperation) (bal : Payment → Int),
      (∀ r ∈ db.payment.payments, bal r = ledgerSum op r db.payment.operations) →
      bal (f p) = bal p + (if operationOf q.message = op then res.2 else 0) →
      ∀ r ∈ updateWhere (isRow q.tenantId p.id) f db.payment.payments,
        bal r = ledgerSum op r (db.payment.operations ++ [storedSuccess q res]) := by
    intro op bal hold hf r hr
    rw [ledgerSum_append]
    rcases mem_updateWhere.mp hr with ⟨r₀, hr₀, rfl⟩
    cases hs : isRow q.tenantId p.id r₀ with
    | true =>
      rw [hids.eq_of_mem hr₀ hp (hsel r₀ hs)]
      simp only [if_true]
      rw [ledgerSum_congr (hsame p), successfulRow_congr (hsame p), hown, hf, hold p hp]
      simp [operationAmount, storedSuccess]
    | false =>
      have hne : r₀.id ≠ p.id := by
        intro heq
        rw [hids.eq_of_mem hr₀ hp heq] at hs
        simp [isRow, htenant] at hs
      simp [hshare op r₀ hne, hold r₀ hr₀]
  refine ⟨h.fresh hnew rfl, ?_, ?_, hsum .capture _ h.captured hcaptured,
    hsum .refund _ h.refunded hrefunded⟩
  · intro o ho hoa
    rcases List.mem_append.mp ho with ho | ho
    · exact (h.authorizes o ho hoa).evolve hevolve
    · rw [List.mem_singleton.mp ho] at hoa
      exact absurd hoa hop
  · intro o ho r id hr hoid
    rcases List.mem_append.mp ho with ho | ho
    · obtain ⟨p₀, hp₀, rfl⟩ := h.refers o ho r id hr hoid
      obtain ⟨p₁, hp₁, hs, -⟩ := hevolve p₀ hp₀
      exact ⟨p₁, hp₁, hs.id⟩
    · rw [List.mem_singleton.mp ho, hrow] at hoid
      cases hoid
      obtain ⟨p₁, hp₁, hs, -⟩ := hevolve p hp
      exact ⟨p₁, hp₁, hs.id⟩

/-- A new payment with its authorize row. -/
theorem LedgerInv.authorize {db : Db} {q : Request} {res : OperationResult} {p : Payment}
    {decisions : List ProviderDecision} (h : LedgerInv db)
    (hnew : findStoredOperation db q.tenantId q.requestId = none)
    (hop : operationOf q.message = .authorize) (hid : p.id = ⟨q.tenantId, q.requestId⟩)
    (hfresh : ∀ r ∈ db.payment.payments, r.id ≠ p.id) (hrecord : res.1.payment.paymentId = p.id)
    (hcaptured : p.capturedAmountMinor = 0) (hrefunded : p.refundedAmountMinor = 0)
    (hpending : res.1.operationStatus = .pending ↔ p.status = .pending) :
    LedgerInv (setOperations
      (setDecisions (setPayments db (db.payment.payments ++ [p])) decisions)
      (db.payment.operations ++ [storedSuccess q res])) := by
  have hmessage : requestPaymentId q.message = none := by
    revert hop
    cases q.message <;> simp [operationOf, requestPaymentId]
  have hrow : (storedSuccess q res).paymentId = some p.id := by
    simp [storedSuccess, hmessage, hrecord]
  have hshare : ∀ (op : PaymentOperation) (r : Payment), op ≠ .authorize →
      successfulRow op r (storedSuccess q res) = false := fun op r hne =>
    successfulRow_of_operation_ne (by simp only [storedSuccess]; rw [hop]; exact hne.symm)
  -- no earlier row can name the new payment
  have hzero : ∀ op, op ≠ .authorize → ledgerSum op p db.payment.operations = 0 := by
    intro op _
    refine sumWhere_eq_zero fun o ho => ?_
    cases hr : o.result with
    | error e => exact successfulRow_of_error hr
    | ok r =>
      refine successfulRow_of_id_ne fun hoid => ?_
      obtain ⟨p₀, hp₀, heq⟩ := h.refers o ho r p.id hr hoid
      exact hfresh p₀ hp₀ heq
  have hsum : ∀ (op : PaymentOperation) (bal : Payment → Int), op ≠ .authorize → bal p = 0 →
      (∀ r ∈ db.payment.payments, bal r = ledgerSum op r db.payment.operations) →
      ∀ r ∈ db.payment.payments ++ [p],
        bal r = ledgerSum op r (db.payment.operations ++ [storedSuccess q res]) := by
    intro op bal hne hbal hold r hr
    rw [ledgerSum_append, hshare op r hne]
    rcases List.mem_append.mp hr with hr | hr
    · simpa using hold r hr
    · rw [List.mem_singleton.mp hr]
      simpa [hzero op hne] using hbal
  refine ⟨h.fresh hnew rfl, ?_, ?_, hsum .capture _ (by decide) hcaptured h.captured,
    hsum .refund _ (by decide) hrefunded h.refunded⟩
  · intro o ho hoa
    rcases List.mem_append.mp ho with ho | ho
    · exact (h.authorizes o ho hoa).evolve
        (Evolves.insert (fun r => ⟨SameIdentity.refl r, Iff.rfl⟩) _ _)
    · rw [List.mem_singleton.mp ho]
      refine ⟨fun e he => (nomatch he), fun r hr => ?_⟩
      cases hr
      refine ⟨by rw [hrow, hid]; rfl, p, by simp, hid, hpending⟩
  · intro o ho r id hr hoid
    rcases List.mem_append.mp ho with ho | ho
    · obtain ⟨p₀, hp₀, heq⟩ := h.refers o ho r id hr hoid
      exact ⟨p₀, List.mem_append_left _ hp₀, heq⟩
    · rw [List.mem_singleton.mp ho, hrow] at hoid
      cases hoid
      exact ⟨p, by simp, rfl⟩

/-! ## Reconciliation and the ledger -/

/-- The authorize row a pending payment joins is the row of its own request,
and its recorded response is still pending. -/
theorem LedgerInv.pending_row {db : Db} {p : Payment} {rid : PaymentRequestId}
    {o : StoredOperation} (h : LedgerInv db) (hids : KeyUnique (·.id) db.payment.payments)
    (hp : p ∈ db.payment.payments) (hpending : p.status = .pending)
    (ho : o ∈ db.payment.operations) (hauth : Authorizes p rid o) :
    p.id = ⟨p.tenantId, rid⟩ ∧ isPendingAuthorize o = true := by
  obtain ⟨ht, hid, hop, hrid⟩ := hauth
  have hrow := h.authorizes o ho hop
  cases hr : o.result with
  | error e =>
    rw [hrow.failed e hr] at hid
    cases hid
  | ok r =>
    obtain ⟨hid', p', hp', hpid', hst⟩ := hrow.payment r hr
    rw [hid, ht, hrid] at hid'
    have hpid : p.id = ⟨p.tenantId, rid⟩ := Option.some.inj hid'
    have hpp : p' = p := hids.eq_of_mem hp' hp (by rw [hpid', ht, hrid, hpid])
    rw [hpp] at hst
    exact ⟨hpid, by simp [isPendingAuthorize, hop, hr, hst.mpr hpending]⟩

/-- The row that a resolution rewrites. -/
theorem LedgerInv.resolved_row {db : Db} {p : Payment} {rid : PaymentRequestId}
    {o : StoredOperation} (h : LedgerInv db) (hids : KeyUnique (·.id) db.payment.payments)
    (hp : p ∈ db.payment.payments) (hpending : p.status = .pending)
    (hop : ∃ o ∈ db.payment.operations, Authorizes p rid o)
    (ho : o ∈ db.payment.operations)
    (hsel : storesAuthorizeResponse p.tenantId rid o = true) :
    Authorizes p rid o ∧ isPendingAuthorize o = true := by
  obtain ⟨o₀, ho₀, hauth⟩ := hop
  simp only [storesAuthorizeResponse, Bool.and_eq_true, decide_eq_true_eq] at hsel
  have heq : o = o₀ := h.keys.eq_of_mem ho ho₀ (by
    simp [operationKey, hsel.1.1, hsel.1.2.1, hauth.1, hauth.2.2.2])
  rw [heq]
  exact ⟨hauth, (h.pending_row hids hp hpending ho₀ hauth).2⟩

theorem resolvedResponse_not_pending (d : ProviderDecision) (p : Payment) :
    (resolvedResponse d p).operationStatus ≠ .pending := by
  unfold resolvedResponse
  cases d.outcome <;> simp

theorem resolvePayment_not_pending (now : Nat) (d : ProviderDecision) (p : Payment) :
    (resolvePayment now d p).status ≠ .pending := by
  unfold resolvePayment
  cases d.outcome <;> simp

/-- A pending payment resolved, together with its authorize row. -/
theorem LedgerInv.resolve {db : Db} {p : Payment} {rid : PaymentRequestId}
    {d : ProviderDecision} {recs : List Reconciliation} (h : LedgerInv db)
    (hids : KeyUnique (·.id) db.payment.payments) (hp : p ∈ db.payment.payments)
    (hpending : p.status = .pending) (hop : ∃ o ∈ db.payment.operations, Authorizes p rid o) :
    LedgerInv (setReconciliations
      (setOperations
        (setPayments db (updateWhere (isPendingRow p.tenantId p.id) (resolvePayment db.now d)
          db.payment.payments))
        (updateWhere (storesAuthorizeResponse p.tenantId rid)
          (resolveOperation d p p.amountMinor) db.payment.operations)) recs) := by
  have hsel : ∀ r ∈ db.payment.payments, isPendingRow p.tenantId p.id r = true → r = p :=
    fun r hr hs => hids.eq_of_mem hr hp (isPendingRow_iff.mp hs).2.1
  have hevolve : Evolves SameIdentity db.payment.payments
      (updateWhere (isPendingRow p.tenantId p.id) (resolvePayment db.now d)
        db.payment.payments) :=
    Evolves.update SameIdentity.refl fun r _ _ => sameIdentity_resolve _ _ r
  obtain ⟨o₀, ho₀, hauth₀⟩ := hop
  obtain ⟨hpid, hpend₀⟩ := h.pending_row hids hp hpending ho₀ hauth₀
  have hsum : ∀ (op : PaymentOperation) (bal : Payment → Int), op ≠ .authorize →
      (∀ r, bal (resolvePayment db.now d r) = bal r) →
      (∀ r ∈ db.payment.payments, bal r = ledgerSum op r db.payment.operations) →
      ∀ r ∈ updateWhere (isPendingRow p.tenantId p.id) (resolvePayment db.now d)
        db.payment.payments,
        bal r = ledgerSum op r (updateWhere (storesAuthorizeResponse p.tenantId rid)
          (resolveOperation d p p.amountMinor) db.payment.operations) := by
    intro op bal hne hbal hold r hr
    rw [ledgerSum_resolve hne]
    obtain ⟨r₀, hr₀, rfl⟩ := mem_updateWhere.mp hr
    split
    · rw [hbal, ledgerSum_congr (sameIdentity_resolve db.now d r₀)]
      exact hold r₀ hr₀
    · exact hold r₀ hr₀
  refine ⟨h.keys.updateWhere fun _ _ _ => rfl, ?_, ?_,
    hsum .capture _ (by decide) (fun _ => rfl) h.captured,
    hsum .refund _ (by decide) (fun _ => rfl) h.refunded⟩
  · intro o ho hoa
    obtain ⟨o₁, ho₁, rfl⟩ := mem_updateWhere.mp ho
    cases hs : storesAuthorizeResponse p.tenantId rid o₁ with
    | true =>
      -- the resolved row: neither it nor its payment is pending any more
      obtain ⟨⟨ht, hid, -, hrid⟩, -⟩ := h.resolved_row hids hp hpending ⟨o₀, ho₀, hauth₀⟩ ho₁ hs
      refine ⟨fun e he => (nomatch he), fun r hr => ?_⟩
      cases hr
      refine ⟨by simp only [if_true, resolveOperation]; rw [hid, hpid, ht, hrid],
        resolvePayment db.now d p, mem_updateWhere_of_pos hp ?_, ?_,
        iff_of_false (resolvedResponse_not_pending d p) (resolvePayment_not_pending _ d p)⟩
      · exact isPendingRow_iff.mpr ⟨rfl, rfl, hpending⟩
      · simp only [if_true, resolveOperation, resolvePayment]
        rw [hpid, ht, hrid]
    | false =>
      simp only [hs, Bool.false_eq_true, if_false] at hoa ⊢
      have hrow := h.authorizes o₁ ho₁ hoa
      refine ⟨hrow.failed, fun r hr => ?_⟩
      obtain ⟨hid, p₁, hp₁, hpid₁, hst⟩ := hrow.payment r hr
      refine ⟨hid, p₁, ?_, hpid₁, hst⟩
      cases hsp : isPendingRow p.tenantId p.id p₁ with
      | false => exact mem_updateWhere_of_not hp₁ hsp
      | true =>
        -- then the row would be the resolved one
        rw [hsel p₁ hp₁ hsp, hpid] at hpid₁
        obtain ⟨ht, hrid⟩ := PaymentId.mk.inj hpid₁
        simp [storesAuthorizeResponse, hoa, hr, ht, hrid, Except.isOk, Except.toBool] at hs
  · intro o ho r id hr hoid
    obtain ⟨o₁, ho₁, rfl⟩ := mem_updateWhere.mp ho
    have hex : ∃ p₁ ∈ db.payment.payments, p₁.id = id := by
      cases hs : storesAuthorizeResponse p.tenantId rid o₁ with
      | true =>
        simp only [hs, if_true, resolveOperation] at hoid
        have hok : o₁.result.isOk = true := by
          simp only [storesAuthorizeResponse, Bool.and_eq_true] at hs
          exact hs.2
        cases hr₁ : o₁.result with
        | error e => rw [hr₁] at hok; cases hok
        | ok r₁ => exact h.refers o₁ ho₁ r₁ id hr₁ hoid
      | false =>
        simp only [hs, Bool.false_eq_true, if_false] at hr hoid
        exact h.refers o₁ ho₁ r id hr hoid
    obtain ⟨p₁, hp₁, heq⟩ := hex
    obtain ⟨p₂, hp₂, hsame⟩ := hevolve p₁ hp₁
    exact ⟨p₂, hp₂, hsame.id.trans heq⟩

/-- A pending payment moved to manual reconciliation. -/
theorem LedgerInv.quarantine {db : Db} {p : Payment} (h : LedgerInv db) :
    LedgerInv (setPayments db (updateWhere (isPendingRow p.tenantId p.id)
      PaymentStore.quarantine db.payment.payments)) := by
  have hsame : ∀ r, SameIdentity r (PaymentStore.quarantine r) :=
    fun r => ⟨rfl, rfl, rfl, rfl, rfl, rfl, rfl⟩
  have hevolve : Evolves
      (fun r r' => SameIdentity r r' ∧ (r'.status = .pending ↔ r.status = .pending))
      db.payment.payments (updateWhere (isPendingRow p.tenantId p.id) PaymentStore.quarantine
        db.payment.payments) :=
    Evolves.update (fun r => ⟨SameIdentity.refl r, Iff.rfl⟩) fun r _ _ => ⟨hsame r, Iff.rfl⟩
  have hsum : ∀ (op : PaymentOperation) (bal : Payment → Int),
      (∀ r, bal (PaymentStore.quarantine r) = bal r) →
      (∀ r ∈ db.payment.payments, bal r = ledgerSum op r db.payment.operations) →
      ∀ r ∈ updateWhere (isPendingRow p.tenantId p.id) PaymentStore.quarantine
        db.payment.payments, bal r = ledgerSum op r db.payment.operations := by
    intro op bal hbal hold r hr
    obtain ⟨r₀, hr₀, rfl⟩ := mem_updateWhere.mp hr
    split
    · rw [hbal, ledgerSum_congr (hsame r₀)]
      exact hold r₀ hr₀
    · exact hold r₀ hr₀
  refine ⟨h.keys, fun o ho hoa => (h.authorizes o ho hoa).evolve hevolve, ?_,
    hsum .capture _ (fun _ => rfl) h.captured, hsum .refund _ (fun _ => rfl) h.refunded⟩
  intro o ho r id hr hoid
  obtain ⟨p₁, hp₁, heq⟩ := h.refers o ho r id hr hoid
  obtain ⟨p₂, hp₂, hs, -⟩ := hevolve p₁ hp₁
  exact ⟨p₂, hp₂, hs.id.trans heq⟩

/-! ## Runs -/

/-- The ledger invariant looks at the payment tables only. -/
theorem LedgerInv.congr {db db' : Db} (h : LedgerInv db)
    (hp : db'.payment.payments = db.payment.payments)
    (ho : db'.payment.operations = db.payment.operations) : LedgerInv db' := by
  refine ⟨by rw [ho]; exact h.keys, ?_, by rw [ho, hp]; exact h.refers,
    by rw [ho, hp]; exact h.captured, by rw [ho, hp]; exact h.refunded⟩
  rw [ho]
  intro o hmem hop
  refine ⟨(h.authorizes o hmem hop).failed, fun r hr => ?_⟩
  rw [hp]
  exact (h.authorizes o hmem hop).payment r hr

/-- The response of an authorize is pending exactly when its payment is. -/
theorem databaseStatus_pending {token : PaymentToken} {status : PaymentStatus}
    (h : databaseStatus (forMethod token) = .ok status) :
    (forMethod token).operationStatus = .pending ↔ status = .pending := by
  cases token <;> cases h <;> simp [forMethod]

/-- Every effect keeps the ledger and the payments in agreement. -/
theorem LedgerInv.effect {db db' : Db} (h : LedgerInv db) (hs : StoreInv db)
    (he : Effect Q db db') : LedgerInv db' := by
  cases he with
  | refl => exact h
  | refuse hq hnew => exact h.refuse hnew
  | quarantine => exact h.quarantine
  | resolve hmem hpending hop => exact h.resolve hs.ids hmem hpending hop
  | act hq hvalid hnew hact =>
    cases hact with
    | authorize hm horder hpay htotal hinact hst hp hfresh hresponse hoperation =>
      refine h.authorize hnew (by rw [hm]; rfl) (by rw [hp]; rfl) hfresh
        (by rw [hresponse]; rfl) (by rw [hp]; rfl) (by rw [hp]; rfl) ?_
      rw [hoperation, databaseStatus_pending hst, hp]
      exact Iff.rfl
    | @capture p m amount hm hmem ht hproof hst hpos hle hmoney hresponse hamount =>
      have hsettled : p.status ≠ .pending := by
        rcases hst with hst | hst | hst <;> rw [hst] <;> decide
      refine h.operate hs.ids hnew hmem ht (by simp [hm, operationOf]) (by rw [hm]; rfl)
        (by rw [hresponse]; rfl) (fun r => ⟨rfl, rfl, rfl, rfl, rfl, rfl, rfl⟩) hsettled
        (ne_pending_of_settled (statusForBalances_settled _ _ _)) ?_ ?_
      · simp [applyCapture, hm, operationOf, hamount]
      · simp [applyCapture, hm, operationOf]
    | @void p reason hm hmem ht hproof hst hzero hresponse =>
      refine h.operate hs.ids hnew hmem ht (by simp [hm, operationOf]) (by rw [hm]; rfl)
        (by rw [hresponse]; rfl) (fun r => ⟨rfl, rfl, rfl, rfl, rfl, rfl, rfl⟩)
        (by rw [hst]; decide) (by simp [applyVoid]) ?_ ?_
      · simp [applyVoid, hm, operationOf]
      · simp [applyVoid, hm, operationOf]
    | @refund p m reason hm hmem ht hproof hst hpos hle hresponse hamount =>
      refine h.operate hs.ids hnew hmem ht (by simp [hm, operationOf]) (by rw [hm]; rfl)
        (by rw [hresponse]; rfl) (fun r => ⟨rfl, rfl, rfl, rfl, rfl, rfl, rfl⟩)
        (ne_pending_of_settled hst)
        (ne_pending_of_settled (statusForBalances_settled _ _ _)) ?_ ?_
      · simp [applyRefund, hm, operationOf]
      · simp [applyRefund, hm, operationOf, hamount]

/-- An effect rewrites only ledger rows of pending authorizes. -/
theorem LedgerInv.kept {db db' : Db} (h : LedgerInv db) (hs : StoreInv db)
    (he : Effect Q db db') : ∀ o ∈ db.payment.operations, isPendingAuthorize o = false →
      o ∈ db'.payment.operations := by
  intro o ho hnot
  cases he with
  | refl => exact ho
  | refuse => exact List.mem_append_left _ ho
  | quarantine => exact ho
  | act _ _ _ hact => cases hact <;> exact List.mem_append_left _ ho
  | @resolve p rid d sel hmem hpending hop =>
    cases hsel : storesAuthorizeResponse p.tenantId rid o with
    | false => exact mem_updateWhere_of_not ho hsel
    | true =>
      rw [(h.resolved_row hs.ids hmem hpending hop ho hsel).2] at hnot
      cases hnot

/-- Rows recorded with a final outcome survive from `db` to `db'`. -/
def KeepsOutcomes (db db' : Db) : Prop :=
  ∀ o ∈ db.payment.operations, isPendingAuthorize o = false → o ∈ db'.payment.operations

/-- Both invariants of the store together. -/
def Consistent (db : Db) : Prop := StoreInv db ∧ LedgerInv db

theorem Consistent.step {db db' : Db} {a : Action} (h : Consistent db)
    (hs : PaymentStore.step db a = some db') : Consistent db' := by
  refine ⟨h.1.step hs, ?_⟩
  cases step_effect h.1.ids hs with
  | store he =>
    exact (he.invariant h fun _ _ ha heff => ⟨ha.1.effect heff, ha.2.effect ha.1 heff⟩).2
  | decided hnow hi =>
    obtain ⟨rfl, -, -⟩ := insertDecision_ok hi
    exact h.2.congr rfl rfl
  | environment => exact h.2.congr rfl rfl

theorem Consistent.keeps {db db' : Db} {a : Action} (h : Consistent db)
    (hs : PaymentStore.step db a = some db') : KeepsOutcomes db db' := by
  cases step_effect h.1.ids hs with
  | store he =>
    exact he.relates h (fun _ _ ha heff => ⟨ha.1.effect heff, ha.2.effect ha.1 heff⟩)
      (fun _ _ ho _ => ho) (fun _ _ _ h₁ h₂ o ho hn => h₂ o (h₁ o ho hn) hn)
      (fun _ _ ha heff => ha.2.kept ha.1 heff)
  | decided hnow hi =>
    obtain ⟨rfl, -, -⟩ := insertDecision_ok hi
    exact fun o ho _ => ho
  | environment => exact fun o ho _ => ho

theorem LedgerInv.of_initial {db : Db} (h : Initial db) : LedgerInv db := by
  obtain ⟨hp, ho, -⟩ := h
  refine ⟨?_, ?_, ?_, ?_, ?_⟩
  · rw [ho]
    exact KeyUnique.nil _
  all_goals simp [hp, ho]

theorem Consistent.of_reachable {db : Db} (h : Reachable db) : Consistent db := by
  obtain ⟨db₀, h0, hr⟩ := h
  exact hr.invariant ⟨StoreInv.of_initial h0, LedgerInv.of_initial h0⟩
    fun _ _ _ hinv _ hs => hinv.step hs

/-- Final outcomes survive every run. -/
theorem Consistent.keeps_run {db db' : Db} (h : Consistent db)
    (hr : Reach PaymentStore.step (fun _ _ => True) db db') : KeepsOutcomes db db' :=
  hr.relates h (fun _ _ _ ha _ hs => ha.step hs) (fun _ _ ho _ => ho)
    (fun _ _ _ h₁ h₂ o ho hn => h₂ o (h₁ o ho hn) hn) (fun _ _ _ ha _ hs => ha.keeps hs)

/-! ## Replays -/

theorem executeIdempotently_conflict {db : Db} {q : Request} {o : StoredOperation}
    (ho : findStoredOperation db q.tenantId q.requestId = some o)
    (hne : o.operation ≠ operationOf q.message ∨ o.requestFingerprint ≠ q.message) :
    executeIdempotently q db = .error (.rpc (alreadyExists
      "request_id was already used for a different payment operation")) := by
  unfold executeIdempotently
  simp only [ho]
  rw [if_pos hne]

theorem executeIdempotently_replay {db : Db} {q : Request} {o : StoredOperation}
    (ho : findStoredOperation db q.tenantId q.requestId = some o)
    (hop : o.operation = operationOf q.message) (hfp : o.requestFingerprint = q.message)
    (hnot : isPendingAuthorize o = false) :
    executeIdempotently q db = .ok (o.result, db) := by
  unfold executeIdempotently
  simp only [ho]
  rw [if_neg (by simp [hop, hfp]), if_neg (by simp [hnot])]

/-- An effect leaves a ledger row alone or resolves it. -/
theorem Effect.row_after {db db' : Db} {o : StoredOperation} (he : Effect Q db db')
    (ho : o ∈ db.payment.operations) : o ∈ db'.payment.operations ∨
      ∃ o' ∈ db'.payment.operations, operationKey o' = operationKey o ∧
        isPendingAuthorize o' = false := by
  cases he with
  | refl => exact .inl ho
  | refuse => exact .inl (List.mem_append_left _ ho)
  | quarantine => exact .inl ho
  | act _ _ _ hact => cases hact <;> exact .inl (List.mem_append_left _ ho)
  | @resolve p rid d sel hmem hpending hop =>
    cases hsel : storesAuthorizeResponse p.tenantId rid o with
    | false => exact .inl (mem_updateWhere_of_not ho hsel)
    | true =>
      refine .inr ⟨_, mem_updateWhere_of_pos ho hsel, rfl, ?_⟩
      simp [isPendingAuthorize, resolveOperation, resolvedResponse_not_pending]

/-- A retry of a pending authorize: reconcile its payment, then return the
response on record, which is the old one or the reconciled one. -/
theorem executeIdempotently_pending {db db' : Db} {q : Request} {o : StoredOperation}
    {out : TxOutcome} (hc : Consistent db)
    (ho : findStoredOperation db q.tenantId q.requestId = some o)
    (hpend : isPendingAuthorize o = true)
    (h : executeIdempotently q db = .ok (out, db')) :
    (∃ n, reconcilePendingPayment q.tenantId ⟨q.tenantId, q.requestId⟩ db = .ok (n, db')) ∧
      ∃ o', findStoredOperation db' q.tenantId q.requestId = some o' ∧ o'.result = out ∧
        (o' = o ∨ isPendingAuthorize o' = false) := by
  obtain ⟨hmem, ht, hrid⟩ := findStoredOperation_some ho
  have hid : o.paymentId = some ⟨q.tenantId, q.requestId⟩ := by
    simp only [isPendingAuthorize, Bool.and_eq_true, decide_eq_true_eq] at hpend
    cases hr : o.result with
    | error e => rw [hr] at hpend; cases hpend.2
    | ok r =>
      rw [((hc.2.authorizes o hmem hpend.1).payment r hr).1, ht, hrid]
  unfold executeIdempotently at h
  simp only [ho] at h
  split at h
  · cases h
  · obtain ⟨db₁, h₁, h₂⟩ := bind_ok h
    unfold reconcileStoredPending at h₁
    simp only [hid] at h₁
    obtain ⟨⟨n, db₂⟩, hrec, heq⟩ := map_ok h₁
    simp only at heq
    subst heq
    cases hf : findStoredOperation db₂ q.tenantId q.requestId with
    | none => rw [hf] at h₂; cases h₂
    | some o' =>
      rw [hf] at h₂
      cases h₂
      refine ⟨⟨n, hrec⟩, o', hf, rfl, ?_⟩
      have heff := reconcilePendingPayment_effect (Q := .payment _ _) hrec (Scope.payment_self _ _)
      have hkeys := (hc.2.effect hc.1 heff).keys
      obtain ⟨hmem', ht', hrid'⟩ := findStoredOperation_some hf
      have hkey : operationKey o' = operationKey o := by
        simp [operationKey, ht, hrid, ht', hrid']
      rcases heff.row_after hmem with hold | ⟨o₁, ho₁, hk₁, hnot⟩
      · exact .inl (hkeys.eq_of_mem hmem' hold hkey)
      · rw [hkeys.eq_of_mem hmem' ho₁ (hkey.trans hk₁.symm)]
        exact .inr hnot

/-- The first request with an id records its own outcome. -/
theorem executeIdempotently_first {db db' : Db} {q : Request} {out : TxOutcome}
    (hnew : findStoredOperation db q.tenantId q.requestId = none)
    (h : executeIdempotently q db = .ok (out, db')) :
    ∃ o ∈ db'.payment.operations, o.tenantId = q.tenantId ∧ o.requestId = q.requestId ∧
      o.operation = operationOf q.message ∧ o.requestFingerprint = q.message ∧
      o.result = out := by
  unfold executeIdempotently at h
  simp only [hnew] at h
  split at h
  · obtain ⟨db₁, hi, h₂⟩ := bind_ok h
    cases h₂
    obtain ⟨rfl, -, -⟩ := insertOperation_ok hi
    exact ⟨_, List.mem_append_right _ (List.mem_singleton.mpr rfl), rfl, rfl, rfl, rfl, rfl⟩
  · obtain ⟨db₁, hi, h₂⟩ := bind_ok h
    cases h₂
    obtain ⟨rfl, -, -⟩ := insertOperation_ok hi
    exact ⟨_, List.mem_append_right _ (List.mem_singleton.mpr rfl), rfl, rfl, rfl, rfl, rfl⟩
  · cases h

/-- Whatever a request returns is on record, under its id and its message. -/
theorem executeIdempotently_recorded {db db' : Db} {q : Request} {out : TxOutcome}
    (hc : Consistent db) (h : executeIdempotently q db = .ok (out, db')) :
    ∃ o ∈ db'.payment.operations, o.tenantId = q.tenantId ∧ o.requestId = q.requestId ∧
      o.operation = operationOf q.message ∧ o.requestFingerprint = q.message ∧
      o.result = out := by
  cases ho : findStoredOperation db q.tenantId q.requestId with
  | none => exact executeIdempotently_first ho h
  | some o =>
    obtain ⟨hmem, ht, hrid⟩ := findStoredOperation_some ho
    by_cases hne : o.operation ≠ operationOf q.message ∨ o.requestFingerprint ≠ q.message
    · rw [executeIdempotently_conflict ho hne] at h
      cases h
    · push Not at hne
      obtain ⟨hop, hfp⟩ := hne
      cases hp : isPendingAuthorize o with
      | false =>
        rw [executeIdempotently_replay ho hop hfp hp] at h
        cases h
        exact ⟨o, hmem, ht, hrid, hop, hfp, rfl⟩
      | true =>
        -- the reconciled row is the old one, with the same request on it
        obtain ⟨⟨n, hrec⟩, o', hf, hout, -⟩ := executeIdempotently_pending hc ho hp h
        have heff := reconcilePendingPayment_effect (Q := .payment _ _) hrec (Scope.payment_self _ _)
        obtain ⟨hmem', ht', hrid'⟩ := findStoredOperation_some hf
        obtain ⟨o₁, ho₁, hsame⟩ := heff.operations_evolve o hmem
        have heq : o₁ = o' := (hc.2.effect hc.1 heff).keys.eq_of_mem ho₁ hmem'
          (by simp [operationKey, hsame.tenantId, hsame.requestId, ht, hrid, ht', hrid'])
        subst heq
        exact ⟨o₁, hmem', ht', hrid', hsame.operation.trans hop,
          hsame.requestFingerprint.trans hfp, hout⟩

/-- A response of the service is on record. -/
theorem serve_recorded {db : Db} {q : Request} {response : OperationResponse}
    (hc : Consistent db) (h : (serve q db).1 = .ok response) :
    ∃ o ∈ (serve q db).2.payment.operations, o.tenantId = q.tenantId ∧
      o.requestId = q.requestId ∧ o.operation = operationOf q.message ∧
      o.requestFingerprint = q.message ∧ o.result = .ok response := by
  cases hv : validate q with
  | some e => simp [serve, hv] at h
  | none =>
    cases hf : transportFault q.message with
    | some e => simp [serve, hv, hf] at h
    | none =>
      have hserve : serve q db = respond db (executeIdempotently q db) := by
        simp [serve, hv, hf]
      rw [hserve] at h ⊢
      cases hex : executeIdempotently q db with
      | error e =>
        rw [hex] at h
        cases e <;> cases h
      | ok r =>
        rw [hex] at h
        obtain ⟨out, db'⟩ := r
        have hout : out = .ok response := h
        exact hout ▸ executeIdempotently_recorded hc hex

/-! ## At most once -/

/-- The request finds its authorize still pending on record. -/
def retriesPending (db : Db) (q : Request) : Bool :=
  (findStoredOperation db q.tenantId q.requestId).any isPendingAuthorize

/-- The action is a request with this key that changes a balance or a status
other than by reconciling a pending authorize. -/
def applies (key : TenantId × PaymentRequestId) (db : Db) : Action → Bool
  | .request q =>
    decide ((q.tenantId, q.requestId) = key) && !retriesPending db q &&
      decide (balances (serve q db).2 ≠ balances db)
  | _ => false

/-- How often the requests with one key apply along a run. -/
def timesApplied (key : TenantId × PaymentRequestId) : Db → List Action → Nat
  | _, [] => 0
  | db, a :: as =>
    (if applies key db a then 1 else 0) +
      match step db a with
      | some db' => timesApplied key db' as
      | none => 0

/-- Some ledger row holds this key. -/
def Recorded (key : TenantId × PaymentRequestId) (db : Db) : Prop :=
  ∃ o ∈ db.payment.operations, operationKey o = key

theorem Recorded.effects {key : TenantId × PaymentRequestId} {db db' : Db}
    (h : Recorded key db) (he : Effects Q db db') : Recorded key db' :=
  he.invariant h fun a b ha heff => by
    obtain ⟨o, ho, hk⟩ := ha
    obtain ⟨o', ho', hsame⟩ := heff.operations_evolve o ho
    exact ⟨o', ho', by rw [← hk]; simp [operationKey, hsame.tenantId, hsame.requestId]⟩

theorem Recorded.step {key : TenantId × PaymentRequestId} {db db' : Db} {a : Action}
    (h : Recorded key db) (hs : Consistent db) (ha : PaymentStore.step db a = some db') :
    Recorded key db' := by
  cases step_effect hs.1.ids ha with
  | store he => exact h.effects he
  | decided hnow hi =>
    obtain ⟨rfl, -, -⟩ := insertDecision_ok hi
    exact h
  | environment => exact h

/-- Once a key is recorded, no request with it applies again. -/
theorem Recorded.not_applies {key : TenantId × PaymentRequestId} {db : Db} (h : Recorded key db)
    (a : Action) : applies key db a = false := by
  cases a with
  | request q =>
    cases hap : applies key db (.request q) with
    | false => rfl
    | true =>
      simp only [applies, Bool.and_eq_true, decide_eq_true_eq, Bool.not_eq_true'] at hap
      obtain ⟨⟨hkey, hretry⟩, hmoved⟩ := hap
      refine absurd ?_ hmoved
      obtain ⟨o, ho, hok⟩ := h
      cases hf : findStoredOperation db q.tenantId q.requestId with
      | none => exact absurd (hok.trans hkey.symm) (findStoredOperation_none hf o ho)
      | some stored =>
        have hnot : isPendingAuthorize stored = false := by
          simpa [retriesPending, hf] using hretry
        unfold serve
        split
        · rfl
        · split
          · rfl
          · by_cases hc : stored.operation ≠ operationOf q.message ∨
              stored.requestFingerprint ≠ q.message
            · rw [executeIdempotently_conflict hf hc]
              rfl
            · rw [not_or, not_not, not_not] at hc
              rw [executeIdempotently_replay hf hc.1 hc.2 hnot]
              rfl
  | getPayment | reconcile | decide | environment => rfl

/-- A request that applies leaves its key on record. -/
theorem recorded_of_applies {key : TenantId × PaymentRequestId} {db db' : Db} {a : Action}
    (h : applies key db a = true) (hs : step db a = some db') : Recorded key db' := by
  cases a with
  | request q =>
    cases hs
    simp only [applies, Bool.and_eq_true, decide_eq_true_eq, Bool.not_eq_true'] at h
    obtain ⟨⟨rfl, hretry⟩, hmoved⟩ := h
    unfold serve at hmoved ⊢
    split at hmoved
    · exact absurd rfl hmoved
    · rename_i hvalid
      split at hmoved
      · exact absurd rfl hmoved
      · rename_i htransport
        cases hex : executeIdempotently q db with
        | error e =>
          rw [hex] at hmoved
          cases e <;> exact absurd rfl hmoved
        | ok r =>
          obtain ⟨out, db'⟩ := r
          cases hf : findStoredOperation db q.tenantId q.requestId with
          | none =>
            obtain ⟨o, ho, h1, h2, -⟩ := executeIdempotently_first hf hex
            exact ⟨o, ho, by simp [operationKey, h1, h2]⟩
          | some stored =>
            obtain ⟨hmem, h1, h2⟩ := findStoredOperation_some hf
            have hrec : Recorded (q.tenantId, q.requestId) db :=
              ⟨stored, hmem, by simp [operationKey, h1, h2]⟩
            exact hrec.effects (executeIdempotently_effect hvalid hex).toEffects
  | getPayment | reconcile | decide | environment => cases h

theorem timesApplied_of_recorded {key : TenantId × PaymentRequestId} {db : Db}
    (hc : Consistent db) (h : Recorded key db) (as : List Action) :
    timesApplied key db as = 0 := by
  induction as generalizing db with
  | nil => rfl
  | cons a as ih =>
    unfold timesApplied
    rw [h.not_applies a]
    cases hs : PaymentStore.step db a with
    | none => rfl
    | some db' => simpa using ih (hc.step hs) (h.step hc hs)

theorem timesApplied_le_one {key : TenantId × PaymentRequestId} {db : Db} (hc : Consistent db)
    (as : List Action) : timesApplied key db as ≤ 1 := by
  induction as generalizing db with
  | nil => simp [timesApplied]
  | cons a as ih =>
    unfold timesApplied
    cases hs : PaymentStore.step db a with
    | none => cases applies key db a <;> simp
    | some db' =>
      cases hap : applies key db a with
      | false => simpa using ih (hc.step hs)
      | true => simp [timesApplied_of_recorded (hc.step hs) (recorded_of_applies hap hs) as]

/-- Along every run each request id takes effect at most once. The first
request with an id records its outcome; a later one returns the recorded
outcome for ever and changes nothing, except that a still-pending authorize is
reconciled first; a request that reuses the id for something else fails and
changes nothing; and the balances are the sums over the ledger. -/
theorem requests_take_effect_once {db : Db} (h : Reachable db) :
    (∀ key as, timesApplied key db as ≤ 1) ∧
    (∀ q out db', validate q = none →
      findStoredOperation db q.tenantId q.requestId = none →
      executeIdempotently q db = .ok (out, db') →
      ∃ o, findStoredOperation db' q.tenantId q.requestId = some o ∧
        o.operation = operationOf q.message ∧ o.requestFingerprint = q.message ∧
        o.result = out) ∧
    (∀ q o, findStoredOperation db q.tenantId q.requestId = some o →
      (o.operation ≠ operationOf q.message ∨ o.requestFingerprint ≠ q.message →
        executeIdempotently q db = .error (.rpc (alreadyExists
          "request_id was already used for a different payment operation")) ∧
        (∃ e, serve q db = (.error e, db))) ∧
      (o.operation = operationOf q.message → o.requestFingerprint = q.message →
        (isPendingAuthorize o = false → ∀ db', Reach step (fun _ _ => True) db db' →
          executeIdempotently q db' = .ok (o.result, db')) ∧
        (isPendingAuthorize o = true → ∀ out db', executeIdempotently q db = .ok (out, db') →
          (∃ n, reconcilePendingPayment q.tenantId ⟨q.tenantId, q.requestId⟩ db =
            .ok (n, db')) ∧
          ∃ o', findStoredOperation db' q.tenantId q.requestId = some o' ∧ o'.result = out ∧
            (o' = o ∨ isPendingAuthorize o' = false)))) ∧
    ∀ p ∈ db.payment.payments,
      p.capturedAmountMinor = ledgerSum .capture p db.payment.operations ∧
      p.refundedAmountMinor = ledgerSum .refund p db.payment.operations := by
  have hc : Consistent db := Consistent.of_reachable h
  refine ⟨fun key as => timesApplied_le_one hc as, ?_, ?_,
    fun p hp => ⟨hc.2.captured p hp, hc.2.refunded p hp⟩⟩
  · intro q out db' hvalid hnew hex
    obtain ⟨o, ho, h1, h2, h3, h4, h5⟩ := executeIdempotently_first hnew hex
    have heff := executeIdempotently_effect hvalid hex
    refine ⟨o, ?_, h3, h4, h5⟩
    rw [← h1, ← h2]
    exact findStoredOperation_of_mem (hc.2.effect hc.1 heff).keys ho
  · intro q o ho
    refine ⟨fun hne => ⟨executeIdempotently_conflict ho hne, ?_⟩, fun hop hfp => ⟨?_, ?_⟩⟩
    · unfold serve
      split
      · exact ⟨_, rfl⟩
      · split
        · exact ⟨_, rfl⟩
        · rw [executeIdempotently_conflict ho hne]
          exact ⟨_, rfl⟩
    · intro hnot db' hr
      obtain ⟨hmem, ht, hrid⟩ := findStoredOperation_some ho
      have hc' : Consistent db' := hr.invariant hc fun _ _ _ ha _ hs => ha.step hs
      refine executeIdempotently_replay ?_ hop hfp hnot
      rw [← ht, ← hrid]
      exact findStoredOperation_of_mem hc'.2.keys (hc.keeps_run hr o hmem hnot)
    · intro hpend out db' hex
      exact executeIdempotently_pending hc ho hpend hex

/-- The first capture of the sample run is on record; sending the whole run
again cannot apply it a second time. -/
theorem requests_take_effect_once_sample :
    findStoredOperation sampleState 1 (.raw ⟨8, 4⟩) ≠ none ∧
      timesApplied (1, .raw ⟨8, 4⟩) sampleState sampleRun ≤ 1 :=
  ⟨by decide, (requests_take_effect_once sampleState_reachable).1 _ _⟩

end CommercePlayground.PaymentStore
