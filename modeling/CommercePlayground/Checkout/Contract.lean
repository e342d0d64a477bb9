/-
CommercePlayground.Checkout.Contract — what a checkout process knows when it
acts.

A process acts on what it was told: the order it created or loaded, the
payment id a response named, a snapshot that showed the payment captured or
compensated. `Fact` lists what of this stays true whatever the others do, and
`contract` says, for each effect, which facts the process must have (`needs`)
and which ones the effect's result teaches (`learns`). That the processes keep
to the contract is proved in `ContractTheorems`; that the facts are facts, in
the theorems about the whole system.
-/
import CommercePlayground.Checkout.Processes

namespace CommercePlayground.Checkout

open Lib

/-! ## Facts -/

/-- The payment that the authorize request of a checkout request creates. -/
def paymentOf (tenantId : TenantId) (requestId : RequestId) : PaymentId :=
  ⟨tenantId, .authorize requestId⟩

/-- What a process can know for good. -/
inductive Fact where
  /-- The order is stored as it is here, but for its status. -/
  | stored (order : PendingOrder)
  /-- The order was created for the request. -/
  | ofRequest (tenantId : TenantId) (orderId : OrderId) (requestId : RequestId)
  /-- The payment is captured in full. -/
  | captured (paymentId : PaymentId)
  /-- Nothing of the payment is held any more, or can be. -/
  | settled (paymentId : PaymentId)
  | paid (tenantId : TenantId) (orderId : OrderId)
  /-- The lease token was issued. -/
  | issued (token : Nat)
  /-- The compensation task is stored as it was claimed. -/
  | claimed (task : ClaimedTask)

/-- The order is known, and known to be the request's. -/
def Known (K : Set Fact) (order : PendingOrder) (requestId : RequestId) : Prop :=
  .stored order ∈ K ∧ .ofRequest order.tenantId order.id requestId ∈ K

theorem Known.mono {K K' : Set Fact} {order : PendingOrder} {requestId : RequestId}
    (h : Known K order requestId) (hK : K ⊆ K') : Known K' order requestId :=
  ⟨hK h.1, hK h.2⟩

/-- The payment of a task. -/
def taskPayment : TaskKind → Option (PaymentId × RequestId)
  | .payment paymentId requestId _ => some (paymentId, requestId)
  | .inventoryRelease .. => none

/-! ## Transactions -/

/-- The statuses of an attempt that has a response. -/
def isResponse (status : AttemptStatus) : Prop :=
  status = .pending ∨ status = .paid ∨ status = .degraded

/-- What a process knows when it starts a transaction. A response is recorded
in a status that the table's CHECK admits, with the order of the request. -/
def Tx.needs : Tx → Set Fact → Prop
  | .recordCheckoutResponse lease status orderId _, K => isResponse status ∧
      ∀ id, orderId = some id → .ofRequest lease.tenantId id lease.requestId ∈ K
  | .finalizeOrder order paymentId _, K => ∃ requestId, Known K order requestId ∧
      paymentId = paymentOf order.tenantId requestId ∧ .captured paymentId ∈ K
  | .enqueuePaymentCompensationTask order paymentId requestId fence, K =>
    Known K order requestId ∧ paymentId = paymentOf order.tenantId requestId ∧
      fence.generation.tenantId = order.tenantId ∧ fence.generation.requestId = requestId
  | .registerPendingPaymentReconciliation order lease paymentId _ _, K =>
    Known K order lease.requestId ∧
      ∀ p, paymentId = some p → p = paymentOf order.tenantId lease.requestId
  | .attachPaymentToReconciliation job paymentId, _ =>
    paymentId = paymentOf job.tenantId job.requestId
  | .lookupAuthorizationPaymentId order requestId, K => Known K order requestId
  | .resolveCompensationIntent _ base _, K => ∀ p, base = .payment p → .settled p ∈ K
  | .finishCompensationTask task failed, K => failed = false → .claimed task ∈ K ∧
      ∀ p r, taskPayment task.kind = some (p, r) → .settled p ∈ K
  | .completePaymentReconciliation job _, K => .paid job.tenantId job.orderId ∈ K
  | .failPaymentReconciliation job _, K =>
    .ofRequest job.tenantId job.orderId job.requestId ∈ K
  | .cancelOrderIfCompensated order _, K => ∃ requestId, Known K order requestId ∧
      .settled (paymentOf order.tenantId requestId) ∈ K
  | _, _ => True

/-- What is certain about the result of a transaction. -/
def Tx.allows : (t : Tx) → t.Result → Prop
  | .createPendingOrder input _ _, (order : PendingOrder) => order.tenantId = input.tenantId
  | .loadPendingOrder tenantId orderId, (order : PendingOrder) =>
    order.tenantId = tenantId ∧ order.id = orderId
  | .claimPaymentReconciliation _, (job : Option PaymentReconciliationJob) =>
    ∀ j, job = some j → ∀ p, j.paymentId = some p → p = paymentOf j.tenantId j.requestId
  | .claimCompensationTask _, (task : Option ClaimedTask) =>
    ∀ c, task = some c → ∀ p r, taskPayment c.kind = some (p, r) → p = paymentOf c.tenantId r
  | .lookupAuthorizationPaymentId order requestId, (paymentId : Option PaymentId) =>
    ∀ p, paymentId = some p → p = paymentOf order.tenantId requestId
  | _, _ => True

/-- What the result of a transaction teaches. -/
def Tx.learns : (t : Tx) → t.Result → Set Fact
  | .claimCheckoutAttempt .., (claim : CheckoutAttemptClaim) =>
    { f | ∃ token, claim = .new token ∧ f = .issued token }
  | .createPendingOrder _ _ lease, (order : PendingOrder) =>
    {.stored order, .ofRequest order.tenantId order.id lease.requestId}
  | .loadPendingOrder .., (order : PendingOrder) => {.stored order}
  | .claimPaymentReconciliation _, (job : Option PaymentReconciliationJob) =>
    { f | ∃ j, job = some j ∧ (f = .ofRequest j.tenantId j.orderId j.requestId ∨
      f = .issued j.parentLeaseToken) }
  | .claimCompensationTask _, (task : Option ClaimedTask) =>
    { f | ∃ c, task = some c ∧ (f = .claimed c ∨
      ∃ p r, taskPayment c.kind = some (p, r) ∧ f = .ofRequest c.tenantId c.orderId r) }
  | .finalizeOrder order _ _, _ => {.paid order.tenantId order.id}
  | .finalizationCommitted order, (committed : Bool) =>
    { f | committed = true ∧ f = .paid order.tenantId order.id }
  | _, _ => ∅

/-! ## Calls -/

/-- A message about the order of a request and its payment, and nothing else. -/
def concerns (order : PendingOrder) (requestId : RequestId) : PaymentMessage → Prop
  | .authorize orderId amount _ _ => orderId = order.id ∧ amount = order.total
  | .capture paymentId amount =>
    paymentId = paymentOf order.tenantId requestId ∧ amount = some order.total
  | .void paymentId _ => paymentId = paymentOf order.tenantId requestId
  | .refund paymentId _ _ => paymentId = paymentOf order.tenantId requestId

/-- What a process knows when it sends a request to the payment service. -/
def paymentNeeds (q : PaymentStore.Request) (K : Set Fact) : Prop :=
  ∃ order requestId, Known K order requestId ∧ q.tenantId = order.tenantId ∧
    concerns order requestId q.message ∧
    (PaymentStore.operationOf q.message = .authorize → q.requestId = .authorize requestId)

/-- What a process knows when it calls. -/
def Call.needs : Call → Set Fact → Prop
  | .payment q, K => paymentNeeds q K
  | .consume q, K => ∃ order requestId token, Known K order requestId ∧
      q.tenantId = order.tenantId ∧ q.checkoutRequestId = some requestId ∧
      q.checkoutLeaseToken = some token ∧ .issued token ∈ K ∧
      ∀ r ∈ q.reservations, ∃ v, r.reservationId = .line order.id v
  | _, _ => True

/-- What is certain about the result of a call. -/
def Call.allows : (c : Call) → c.Result → Prop
  | .payment q, (r : Except PaymentRpcException OperationResponse) =>
    ∀ response, r = .ok response → PaymentStore.operationOf q.message = .authorize →
      response.payment.paymentId = ⟨q.tenantId, q.requestId⟩
  | _, _ => True

/-- A record of a payment captured in full. -/
def capturedRecord (r : PaymentRecord) : Prop :=
  r.status = .captured ∧ r.capturedAmount = r.authorizedAmount

/-- A record of a payment that is compensated. -/
def settledRecord (r : PaymentRecord) : Prop :=
  r.status = .voided ∨ r.status = .failed ∨
    ((r.status = .partiallyRefunded ∨ r.status = .refunded) ∧
      r.capturedAmount = r.refundedAmount)

/-- What the result of a call teaches. -/
def Call.learns : (c : Call) → c.Result → Set Fact
  | .payment q, (r : Except PaymentRpcException OperationResponse) =>
    { f | ∃ response p amount, r = .ok response ∧ q.message = .capture p amount ∧
      response.operationStatus = .succeeded ∧ f = .captured p }
  | .getPayment _ p, (r : Except PaymentRpcException PaymentRecord) =>
    { f | ∃ record, r = .ok record ∧ ((capturedRecord record ∧ f = .captured p) ∨
      (settledRecord record ∧ f = .settled p)) }
  | _, _ => ∅

/-! ## The contract -/

def Effect.needs : Effect → Set Fact → Prop
  | .tx t, K => t.needs K
  | .call c, K => c.needs K
  | _, _ => True

def Effect.allows : (e : Effect) → e.Result → Prop
  | .tx t, (r : ApiResult t.Result) => ∀ a, r = .ok a → t.allows a
  | .call c, r => c.allows r
  | _, _ => True

def Effect.learns : (e : Effect) → e.Result → Set Fact
  | .tx t, (r : ApiResult t.Result) => { f | ∃ a, r = .ok a ∧ f ∈ t.learns a }
  | .call c, r => c.learns r
  | _, _ => ∅

theorem Tx.needs_mono {t : Tx} {K K' : Set Fact} (hK : K ⊆ K') (h : t.needs K) :
    t.needs K' := by
  cases t with
  | recordCheckoutResponse => exact ⟨h.1, fun id hid => hK (h.2 id hid)⟩
  | finalizeOrder order paymentId fence =>
    obtain ⟨requestId, hknown, hp, hcaptured⟩ := h
    exact ⟨requestId, hknown.mono hK, hp, hK hcaptured⟩
  | enqueuePaymentCompensationTask => exact ⟨h.1.mono hK, h.2⟩
  | registerPendingPaymentReconciliation => exact ⟨h.1.mono hK, h.2⟩
  | lookupAuthorizationPaymentId => exact Known.mono h hK
  | resolveCompensationIntent => exact fun p hp => hK (h p hp)
  | finishCompensationTask =>
    intro hfailed
    obtain ⟨hclaimed, hsettled⟩ := h hfailed
    exact ⟨hK hclaimed, fun p r hp => hK (hsettled p r hp)⟩
  | completePaymentReconciliation => exact hK h
  | failPaymentReconciliation => exact hK h
  | cancelOrderIfCompensated =>
    obtain ⟨requestId, hknown, hsettled⟩ := h
    exact ⟨requestId, hknown.mono hK, hK hsettled⟩
  | _ => exact h

theorem paymentNeeds_mono {q : PaymentStore.Request} {K K' : Set Fact} (hK : K ⊆ K')
    (h : paymentNeeds q K) : paymentNeeds q K' := by
  obtain ⟨order, requestId, hknown, hrest⟩ := h
  exact ⟨order, requestId, hknown.mono hK, hrest⟩

theorem Call.needs_mono {c : Call} {K K' : Set Fact} (hK : K ⊆ K') (h : c.needs K) :
    c.needs K' := by
  cases c with
  | payment q => exact paymentNeeds_mono hK h
  | consume q =>
    obtain ⟨order, requestId, token, hknown, ht, hr, htok, hissued, hlines⟩ := h
    exact ⟨order, requestId, token, hknown.mono hK, ht, hr, htok, hK hissued, hlines⟩
  | getPayment | reserve | release => trivial

/-- The contract of the checkout processes. -/
def contract : Contract Effect Effect.Result Fact where
  needs := Effect.needs
  allows := Effect.allows
  learns := Effect.learns
  needs_mono := by
    intro e K K' hK h
    cases e with
    | tx t => exact Tx.needs_mono hK h
    | call c => exact Call.needs_mono hK h
    | catalog | pricing | startHeartbeat | stopHeartbeat => trivial

end CommercePlayground.Checkout
