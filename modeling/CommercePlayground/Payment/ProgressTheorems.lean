/-
CommercePlayground.Payment.ProgressTheorems — when a request takes effect.

The other modules of this directory say what a request may have done. Here it
is said what it does for certain: a request is carried out, refused or replayed
(`serve_cases`), a voidable payment is voided (`voidOnce_ok`) and a refundable
one is refunded (`refundOnce_ok`). No write is rejected by a constraint,
because the rows it writes satisfy the store invariant.
-/
import CommercePlayground.Payment.BalanceTheorems

namespace CommercePlayground.PaymentStore

open Lib

/-! ## The ways a request goes -/

/-- A transaction that carries out no request for the first time. -/
def Scope.passive : Scope where
  requests := fun _ => False
  payments := fun _ _ => true

/-- A request is carried out for the first time and recorded, or refused for
the first time and recorded, or it is a replay or never got to the store. -/
theorem serve_cases (q : Request) (db : Db) :
    Effect .passive db (serve q db).2 ∨
    (findStoredOperation db q.tenantId q.requestId = none ∧
      ((∃ res db₁, validate q = none ∧ action q db = .ok (res, db₁) ∧
          (serve q db).2 =
            setOperations db₁ (db₁.payment.operations ++ [storedSuccess q res])) ∨
        ∃ e, action q db = .error (.rpc e) ∧
          (serve q db).2 = setOperations db (db.payment.operations ++ [storedFailure q e]))) := by
  unfold serve
  cases hvalid : validate q with
  | some e => exact .inl .refl
  | none =>
    cases hfault : transportFault q.message with
    | some e => exact .inl .refl
    | none =>
      cases hstored : findStoredOperation db q.tenantId q.requestId with
      | some stored =>
        -- a replay
        left
        cases hex : executeIdempotently q db with
        | error e => cases e <;> exact .refl
        | ok r =>
          unfold executeIdempotently at hex
          simp only [hstored] at hex
          split at hex
          · cases hex
          · split at hex
            · obtain ⟨db₁, hrec, hres⟩ := bind_ok hex
              split at hres
              · cases hres
              · cases hres
                unfold reconcileStoredPending at hrec
                split at hrec
                · cases hrec
                  exact .refl
                · obtain ⟨r, hr, rfl⟩ := map_ok hrec
                  exact reconcilePendingPayment_effect hr rfl
            · cases hex
              exact .refl
      | none =>
        dsimp only
        cases hact : action q db with
        | ok r =>
          obtain ⟨res, db₁⟩ := r
          have hex : executeIdempotently q db =
              (insertOperation db₁ (storedSuccess q res)).bind
                fun db₂ => .ok (.ok res.1, db₂) := by
            unfold executeIdempotently
            simp only [hstored, hact]
            rfl
          cases hi : insertOperation db₁ (storedSuccess q res) with
          | ok db₂ =>
            obtain ⟨rfl, -, -⟩ := insertOperation_ok hi
            refine .inr ⟨rfl, .inl ⟨res, db₁, rfl, rfl, ?_⟩⟩
            rw [hex, hi]
            rfl
          | error e =>
            left
            rw [hex, hi]
            cases e <;> exact .refl
        | error e =>
          cases e with
          | rpc e =>
            have hex : executeIdempotently q db =
                (insertOperation db (storedFailure q e)).bind
                  fun db₂ => .ok (.error e, db₂) := by
              unfold executeIdempotently
              simp only [hstored, hact]
              rfl
            cases hi : insertOperation db (storedFailure q e) with
            | ok db₂ =>
              obtain ⟨rfl, -, -⟩ := insertOperation_ok hi
              refine .inr ⟨rfl, .inr ⟨e, rfl, ?_⟩⟩
              rw [hex, hi]
              rfl
            | error e =>
              left
              rw [hex, hi]
              cases e <;> exact .refl
          | sql v =>
            left
            unfold executeIdempotently
            simp only [hstored, hact]
            exact .refl
          | illegalState m =>
            left
            unfold executeIdempotently
            simp only [hstored, hact]
            exact .refl

/-- An effect within a scope is one within any larger scope. -/
theorem Effect.weaken {Q Q' : Scope} {db db' : Db} (he : Effect Q db db')
    (hrequests : ∀ q, Q.requests q → Q'.requests q)
    (hpayments : ∀ t id, Q.payments t id = true → Q'.payments t id = true) :
    Effect Q' db db' := by
  cases he with
  | refl => exact .refl
  | act hq hvalid hnew hact => exact .act (hrequests _ hq) hvalid hnew hact
  | refuse hq hnew => exact .refuse (hrequests _ hq) hnew
  | quarantine hmem hpending => exact .quarantine hmem hpending
  | resolve hmem hpending hop hdecision hmatch hsel hall hq =>
    exact .resolve hmem hpending hop hdecision hmatch hsel hall (hpayments _ _ hq)

/-! ## Reads -/

/-- A row that is found by its tenant and id. -/
theorem findPayment_of_mem {db : Db} (h : StoreInv db) {p : Payment}
    (hp : p ∈ db.payment.payments) {t : TenantId} {id : PaymentId} (ht : p.tenantId = t)
    (hid : p.id = id) : findPayment db t id = some (paymentRow db p) := by
  unfold findPayment
  cases hf : db.payment.payments.find? (isRow t id) with
  | none =>
    have := List.find?_eq_none.mp hf p hp
    simp [isRow, ht, hid] at this
  | some r =>
    obtain ⟨hr, hkey⟩ := find?_some_spec hf
    obtain ⟨-, hrid⟩ := isRow_iff.mp hkey
    have heq : r = p := h.ids.eq_of_mem hr hp (hrid.trans hid.symm)
    simp [heq]

/-- A record is that of a stored payment. -/
theorem serveGetPayment_ok {t : TenantId} {id : PaymentId} {db : Db} {record : PaymentRecord}
    (h : (serveGetPayment t id db).1 = .ok record) :
    ∃ p ∈ (serveGetPayment t id db).2.payment.payments, p.tenantId = t ∧ p.id = id ∧
      record = toRecord (paymentRow (serveGetPayment t id db).2 p) := by
  unfold serveGetPayment at h ⊢
  cases hget : getPayment t id db with
  | error e =>
    rw [hget] at h
    cases e <;> cases h
  | ok r =>
    rw [hget] at h
    obtain ⟨out, db'⟩ := r
    have hout : out = .ok record := h
    subst hout
    unfold getPayment at hget
    obtain ⟨⟨n, db₁⟩, hrec, hread⟩ := bind_ok hget
    dsimp only at hread
    cases hfind : findPayment db₁ t id with
    | none =>
      rw [hfind] at hread
      cases hread
    | some row =>
      rw [hfind] at hread
      cases hread
      obtain ⟨hmem, ht, hid, hrow⟩ := findPayment_some hfind
      exact ⟨row.row, hmem, ht, hid, congrArg toRecord hrow⟩

/-- Reading a payment that is not pending changes nothing. -/
theorem serveGetPayment_settled {db : Db} (h : StoreInv db) {p : Payment}
    (hp : p ∈ db.payment.payments) {t : TenantId} {id : PaymentId} (ht : p.tenantId = t)
    (hid : p.id = id) (hstatus : p.status ≠ .pending) :
    serveGetPayment t id db = (.ok (toRecord (paymentRow db p)), db) := by
  have hfind := findPayment_of_mem h hp ht hid
  have hrow : db.payment.payments.find? (isRow t id) = some p := by
    unfold findPayment at hfind
    obtain ⟨r, hr, heq⟩ := Option.map_eq_some_iff.mp hfind
    rw [hr]
    exact congrArg (some ·.row) heq
  have hpending : reconcilePendingPayment t id db = .ok (0, db) := by
    unfold reconcilePendingPayment findPendingPayment
    simp only [hrow]
    cases authorizeOperation db p with
    | none => rfl
    | some o => simp [hstatus]
  unfold serveGetPayment getPayment
  simp only [hpending, bind, Except.bind, hfind]
  rfl

/-! ## Writes that succeed -/

/-- Rows that satisfy the store invariant pass every constraint. -/
theorem writePayments_of_inv {db : Db} {t : List Payment} (h : StoreInv (setPayments db t)) :
    writePayments db t = .ok (setPayments db t) := by
  have hchecks : t.all rowChecks = true :=
    List.all_eq_true.mpr fun p hp => (h.rows p hp).rowChecks
  have hkeys : (t.map (·.id)).Nodup := h.ids
  have hactive : (activeOrderKeys t).Nodup := activeOrderKeys_nodup h.ids h.oneActive
  unfold writePayments
  simp [hchecks, hkeys, hactive]

/-- A payment with a provider's authorization that was never captured is
voided. -/
theorem voidOnce_ok {db : Db} (h : StoreInv db) {p : Payment} (hp : p ∈ db.payment.payments)
    {t : TenantId} {id : PaymentId} (ht : p.tenantId = t) (hid : p.id = id)
    (hstatus : p.status = .authorized) (hzero : p.capturedAmountMinor = 0) :
    ∃ res, voidOnce t id db = .ok (res,
      setPayments db (updateWhere (isRow t id) applyVoid db.payment.payments)) := by
  have hrow := h.rows p hp
  have hproof := proof_of_decision (hrow.proved (by simp [hstatus]) (by simp [hstatus]))
  have hinv : StoreInv (setPayments db
      (updateWhere (isRow t id) applyVoid db.payment.payments)) :=
    h.update hp (fun q hq => ((isRow_iff.mp hq).2).trans hid.symm)
      (fun q => ⟨rfl, rfl, rfl, rfl, rfl, rfl, rfl⟩) (by simp [isActive, hstatus])
      (hrow.void hstatus hzero)
  unfold voidOnce
  rw [findPayment_of_mem h hp ht hid]
  simp only [paymentRow] at hproof ⊢
  simp only [hproof, hstatus, hzero, updatePayment, writePayments_of_inv hinv]
  exact ⟨_, rfl⟩

/-- A refund of what is left of the captured funds, or less, is carried out. -/
theorem refundOnce_ok {db : Db} (h : StoreInv db) {p : Payment} (hp : p ∈ db.payment.payments)
    {t : TenantId} {id : PaymentId} (ht : p.tenantId = t) (hid : p.id = id)
    (hstatus : settledStatus p.status = true) {m : Money} (hcurrency : m.currency = p.currency)
    (hpos : 0 < m.amountMinor)
    (hle : p.refundedAmountMinor + m.amountMinor ≤ p.capturedAmountMinor) :
    ∃ res, refundOnce t id m db = .ok (res, setPayments db (updateWhere (isRow t id)
      (applyRefund (p.refundedAmountMinor + m.amountMinor)) db.payment.payments)) := by
  have hrow := h.rows p hp
  have hproof := proof_of_decision
    (hrow.proved (ne_pending_of_settled hstatus) (ne_failed_of_settled hstatus))
  have hinv : StoreInv (setPayments db (updateWhere (isRow t id)
      (applyRefund (p.refundedAmountMinor + m.amountMinor)) db.payment.payments)) :=
    h.update hp (fun q hq => ((isRow_iff.mp hq).2).trans hid.symm)
      (fun q => ⟨rfl, rfl, rfl, rfl, rfl, rfl, rfl⟩)
      (hrow.isActive_of_refundable hstatus (by omega)) (hrow.refund hstatus hpos hle)
  have hrefundable : isRefundable (paymentRow db p) = true := by
    simp only [isRefundable, hproof, Bool.true_and]
    exact hstatus
  have hleft : ¬ p.capturedAmountMinor - p.refundedAmountMinor ≤ 0 := by omega
  have hamount : ¬ (m.amountMinor ≤ 0 ∨
      m.amountMinor > p.capturedAmountMinor - p.refundedAmountMinor) := by omega
  unfold refundOnce
  rw [findPayment_of_mem h hp ht hid]
  have hcells : (paymentRow db p).row = p := rfl
  simp only [hrefundable, hcells, hleft, hamount, hcurrency, updatePayment,
    writePayments_of_inv hinv, Bool.true_eq_false, or_self, if_false, ne_eq, not_true_eq_false]
  exact ⟨_, rfl⟩

/-- A first request whose action succeeds is carried out and recorded. -/
theorem serve_of_action {q : Request} {db db₁ : Db} {res : OperationResult}
    (hvalid : validate q = none) (hfault : transportFault q.message = none)
    (hnew : findStoredOperation db q.tenantId q.requestId = none)
    (hact : action q db = .ok (res, db₁))
    (hoperations : db₁.payment.operations = db.payment.operations)
    (hstored : ∀ id, (storedSuccess q res).paymentId = some id →
      ∃ p ∈ db₁.payment.payments, p.tenantId = q.tenantId ∧ p.id = id) :
    serve q db =
      (.ok res.1, setOperations db₁ (db₁.payment.operations ++ [storedSuccess q res])) := by
  have hkey : operationKey (storedSuccess q res) ∉ db₁.payment.operations.map operationKey := by
    intro hmem
    obtain ⟨o, ho, hk⟩ := List.mem_map.mp hmem
    rw [hoperations] at ho
    obtain ⟨hot, hor⟩ := Prod.mk.inj hk
    have := List.find?_eq_none.mp hnew o ho
    simp only [decide_eq_true_eq] at this
    exact this ⟨hot, hor⟩
  have hfk : (storedSuccess q res).paymentId.all (fun id => db₁.payment.payments.any fun r =>
      r.tenantId = (storedSuccess q res).tenantId ∧ r.id = id) = true := by
    rw [Option.all_eq_true]
    intro id hid
    obtain ⟨p, hp, ht, hpid⟩ := hstored id hid
    rw [List.any_eq_true]
    exact ⟨p, hp, decide_eq_true ⟨ht, hpid⟩⟩
  have hinsert : insertOperation db₁ (storedSuccess q res) =
      .ok (setOperations db₁ (db₁.payment.operations ++ [storedSuccess q res])) := by
    unfold insertOperation
    rw [if_neg hkey, if_neg (by rw [hfk]; simp)]
  have hex : executeIdempotently q db = .ok (.ok res.1,
      setOperations db₁ (db₁.payment.operations ++ [storedSuccess q res])) := by
    unfold executeIdempotently
    simp only [hnew, hact, hinsert]
    rfl
  unfold serve
  simp only [hvalid, hfault, hex]
  rfl

end CommercePlayground.PaymentStore
