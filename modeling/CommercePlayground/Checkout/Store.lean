/-
CommercePlayground.Checkout.Store — the transactions of checkout as one type,
and the generation each of them acts for.
-/
import CommercePlayground.Checkout.Recovery

namespace CommercePlayground.Checkout

/-! ## Transactions -/

/-- The transactions of checkout. -/
inductive Tx where
  | claimCheckoutAttempt (tenantId : TenantId) (requestId : RequestId)
      (fingerprint : CheckoutInput)
  | assertCheckoutFence (fence : CheckoutFence)
  | refreshCheckoutFence (fence : CheckoutFence)
  | createPendingOrder (input : CheckoutInput) (quote : QuoteResponse) (lease : CheckoutLease)
  | loadPendingOrder (tenantId : TenantId) (orderId : OrderId)
  | recordCheckoutResponse (lease : CheckoutLease) (status : AttemptStatus)
      (orderId : Option OrderId) (payload : CheckoutPayload)
  | recordCheckoutFailure (lease : CheckoutLease) (error : ApiError)
  | cancelOrderFenced (order : PendingOrder) (fence : CheckoutFence)
  | cancelOrderIfCompensated (order : PendingOrder) (fence : CheckoutFence)
  | finalizationCommitted (order : PendingOrder)
  | finalizeOrder (order : PendingOrder) (paymentId : PaymentId) (fence : CheckoutFence)
  | registerPendingPaymentReconciliation (order : PendingOrder) (lease : CheckoutLease)
      (paymentId : Option PaymentId) (methodType : PaymentMethodType) (allowExpired : Bool)
  | wakePaymentReconciliation (tenantId : TenantId) (requestId : RequestId)
  | claimPaymentReconciliation (pick : TenantId × RequestId)
  | reclaimExhaustedPaymentReconciliation
  | recordPaymentReconciliationObservation (job : PaymentReconciliationJob)
  | attachPaymentToReconciliation (job : PaymentReconciliationJob) (paymentId : PaymentId)
  | reschedulePaymentReconciliation (job : PaymentReconciliationJob)
  | completePaymentReconciliation (job : PaymentReconciliationJob) (payload : CheckoutPayload)
  | failPaymentReconciliation (job : PaymentReconciliationJob) (error : ApiError)
  | lookupAuthorizationPaymentId (order : PendingOrder) (requestId : RequestId)
  | paidReconciliationPayload (order : PendingOrder) (paymentId : PaymentId)
  | enqueueInventoryCompensationTasks (order : PendingOrder)
      (reservations : List InventoryReservation) (fence : CheckoutFence)
  | enqueuePaymentCompensationTask (order : PendingOrder) (paymentId : PaymentId)
      (requestId : RequestId) (fence : CheckoutFence)
  | activateCompensationIntent (order : PendingOrder) (key : TaskKey) (fence : CheckoutFence)
  | resolveCompensationIntent (order : PendingOrder) (base : TaskBaseKey)
      (fence : CheckoutFence)
  | beginCompensationOperation (order : PendingOrder) (key : TaskKey) (fence : CheckoutFence)
  | completeCompensationOperation (order : PendingOrder) (key : TaskKey)
      (fence : CheckoutFence)
  | claimCompensationTask (pick : Nat)
  | compensationFence (task : ClaimedTask)
  | finishCompensationTask (task : ClaimedTask) (failed : Bool)
  | deadLetterExpiredCompensationTask (pick : Nat)
  | rescheduleCompensationTask (task : ClaimedTask)

/-- What a transaction returns. -/
def Tx.Result : Tx → Type
  | .claimCheckoutAttempt .. => CheckoutAttemptClaim
  | .createPendingOrder .. => PendingOrder
  | .loadPendingOrder .. => PendingOrder
  | .finalizationCommitted .. => Bool
  | .claimPaymentReconciliation .. => Option PaymentReconciliationJob
  | .reclaimExhaustedPaymentReconciliation => Bool
  | .lookupAuthorizationPaymentId .. => Option PaymentId
  | .paidReconciliationPayload .. => CheckoutPayload
  | .claimCompensationTask .. => Option ClaimedTask
  | .compensationFence .. => CheckoutFence
  | .deadLetterExpiredCompensationTask .. => Bool
  | _ => Unit

/-- A transaction on the database. -/
def Tx.run : (t : Tx) → Db → ApiResult (t.Result × Db)
  | .claimCheckoutAttempt tenantId requestId fingerprint =>
    Checkout.claimCheckoutAttempt tenantId requestId fingerprint
  | .assertCheckoutFence fence => Checkout.assertCheckoutFence fence
  | .refreshCheckoutFence fence => Checkout.refreshCheckoutFence fence
  | .createPendingOrder input quote lease => Checkout.createPendingOrder input quote lease
  | .loadPendingOrder tenantId orderId => Checkout.loadPendingOrder tenantId orderId
  | .recordCheckoutResponse lease status orderId payload =>
    Checkout.recordCheckoutResponse lease status orderId payload
  | .recordCheckoutFailure lease error => Checkout.recordCheckoutFailure lease error
  | .cancelOrderFenced order fence => Checkout.cancelOrderFenced order fence
  | .cancelOrderIfCompensated order fence => Checkout.cancelOrderIfCompensated order fence
  | .finalizationCommitted order => Checkout.finalizationCommitted order
  | .finalizeOrder order paymentId fence => Checkout.finalizeOrder order paymentId fence
  | .registerPendingPaymentReconciliation order lease paymentId methodType allowExpired =>
    Checkout.registerPendingPaymentReconciliation order lease paymentId methodType allowExpired
  | .wakePaymentReconciliation tenantId requestId =>
    Checkout.wakePaymentReconciliation tenantId requestId
  | .claimPaymentReconciliation pick => Checkout.claimPaymentReconciliation pick
  | .reclaimExhaustedPaymentReconciliation => Checkout.reclaimExhaustedPaymentReconciliation
  | .recordPaymentReconciliationObservation job =>
    Checkout.recordPaymentReconciliationObservation job
  | .attachPaymentToReconciliation job paymentId =>
    Checkout.attachPaymentToReconciliation job paymentId
  | .reschedulePaymentReconciliation job => Checkout.reschedulePaymentReconciliation job
  | .completePaymentReconciliation job payload =>
    Checkout.completePaymentReconciliation job payload
  | .failPaymentReconciliation job error => Checkout.failPaymentReconciliation job error
  | .lookupAuthorizationPaymentId order requestId =>
    Checkout.lookupAuthorizationPaymentId order requestId
  | .paidReconciliationPayload order paymentId =>
    Checkout.paidReconciliationPayload order paymentId
  | .enqueueInventoryCompensationTasks order reservations fence =>
    Checkout.enqueueInventoryCompensationTasks order reservations fence
  | .enqueuePaymentCompensationTask order paymentId requestId fence =>
    Checkout.enqueuePaymentCompensationTask order paymentId requestId fence
  | .activateCompensationIntent order key fence =>
    Checkout.activateCompensationIntent order key fence
  | .resolveCompensationIntent order base fence =>
    Checkout.resolveCompensationIntent order base fence
  | .beginCompensationOperation order key fence =>
    Checkout.beginCompensationOperation order key fence
  | .completeCompensationOperation order key fence =>
    Checkout.completeCompensationOperation order key fence
  | .claimCompensationTask pick => Checkout.claimCompensationTask pick
  | .compensationFence task => Checkout.compensationFence task
  | .finishCompensationTask task failed => Checkout.finishCompensationTask task failed
  | .deadLetterExpiredCompensationTask pick => Checkout.deadLetterExpiredCompensationTask pick
  | .rescheduleCompensationTask task => Checkout.rescheduleCompensationTask task


/-- The generation a transaction carries: that of its fence, of its lease or
of the claim it acts for. The others name a row and nothing else. -/
def Tx.generation : Tx → Option Generation
  | .assertCheckoutFence fence => some fence.generation
  | .refreshCheckoutFence fence => some fence.generation
  | .createPendingOrder input _ lease => some (orderGeneration input lease)
  | .recordCheckoutResponse lease _ _ _ => some (CheckoutFence.attempt lease).generation
  | .recordCheckoutFailure lease _ => some (CheckoutFence.attempt lease).generation
  | .cancelOrderFenced _ fence => some fence.generation
  | .cancelOrderIfCompensated _ fence => some fence.generation
  | .finalizeOrder _ _ fence => some fence.generation
  | .registerPendingPaymentReconciliation _ lease _ _ _ =>
    some (CheckoutFence.attempt lease).generation
  | .recordPaymentReconciliationObservation job => some job.fence.generation
  | .attachPaymentToReconciliation job _ => some job.fence.generation
  | .reschedulePaymentReconciliation job => some job.fence.generation
  | .completePaymentReconciliation job _ => some job.fence.generation
  | .failPaymentReconciliation job _ => some job.fence.generation
  | .enqueueInventoryCompensationTasks _ _ fence => some fence.generation
  | .enqueuePaymentCompensationTask _ _ _ fence => some fence.generation
  | .activateCompensationIntent _ _ fence => some fence.generation
  | .resolveCompensationIntent _ _ fence => some fence.generation
  | .beginCompensationOperation _ _ fence => some fence.generation
  | .completeCompensationOperation _ _ fence => some fence.generation
  | .compensationFence task => some task.fence.generation
  | .finishCompensationTask task _ => some task.fence.generation
  | .rescheduleCompensationTask task => some task.fence.generation
  | .claimCheckoutAttempt .. | .loadPendingOrder .. | .finalizationCommitted ..
  | .wakePaymentReconciliation .. | .claimPaymentReconciliation ..
  | .reclaimExhaustedPaymentReconciliation | .lookupAuthorizationPaymentId ..
  | .paidReconciliationPayload .. | .claimCompensationTask ..
  | .deadLetterExpiredCompensationTask .. => none

end CommercePlayground.Checkout
