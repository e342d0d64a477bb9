/-
CommercePlayground.Checkout.StockTheorems — the checkout processes keep to
their contract with the stock.

Payment, compensation and bookkeeping neither reserve nor consume nor
finalize (the first section), so of them the old contract is enough. What is
walked again is the way from the reservation of the lines
(`reserveInventory_stock`) over the consume, which teaches that every line is
consumed (`consumeInventory_stock`), to the finalization.
-/
import CommercePlayground.Checkout.Stock
import CommercePlayground.Checkout.ContractTheorems

namespace CommercePlayground.Checkout

open Lib

variable {α : Type}

/-! ## What leaves the stock alone -/

/-- The program reserves, consumes and finalizes nothing. -/
abbrev Quiet (x : Flow α) : Prop := Stays stock.Quiet x

theorem quiet_tx {t : Tx} (h : stock.Quiet (.tx t)) : Quiet (tx t) := ⟨h, fun _ => trivial⟩

theorem quiet_call {q : Call} (h : stock.Quiet (.call q)) : Quiet (call q) :=
  ⟨h, fun _ => trivial⟩

theorem quiet_ofResult {r : ApiResult α} : Quiet (ofResult r) := trivial

/-- A transaction, and then nothing that touches the stock. -/
theorem quiet_txThen {t : Tx} {f : t.Result → Flow α} (h : stock.Quiet (.tx t))
    (hf : ∀ r, Quiet (f r)) : Quiet (tx t >>= f) :=
  Stays.bind (quiet_tx h) hf

theorem quiet_withCheckoutFence {fence : CheckoutFence} {operation : Flow α}
    (h : Quiet operation) : Quiet (withCheckoutFence fence operation) := by
  refine quiet_txThen (fun _ _ => trivial) fun _ => ?_
  refine Stays.bind ⟨fun _ _ => trivial, fun _ => trivial⟩ fun _ => ?_
  refine Stays.attempt h fun r => ?_
  refine Stays.bind ⟨fun _ _ => trivial, fun _ => trivial⟩ fun _ => ?_
  exact quiet_txThen (fun _ _ => trivial) fun _ => quiet_ofResult

section Quiet

variable {input : CheckoutInput} {order : PendingOrder} {lease : CheckoutLease}
  {fence : CheckoutFence} {paymentId : PaymentId} {requestId : RequestId} {e : ApiError}

theorem authorizePayment_quiet {token : PaymentToken} {method : PaymentMethodType} :
    Quiet (authorizePayment order requestId token method) :=
  Stays.bind (quiet_call fun _ _ => trivial) fun _ =>
    Stays.bind quiet_ofResult fun _ => quiet_ofResult

theorem paymentOperation_quiet {operation : String} {q : PaymentStore.Request} :
    Quiet (paymentOperation operation q) :=
  Stays.bind (quiet_call fun _ _ => trivial) fun _ =>
    Stays.bind quiet_ofResult fun _ => quiet_ofResult

theorem getPaymentSnapshot_quiet : Quiet (getPaymentSnapshot order paymentId) :=
  Stays.bind (quiet_call fun _ _ => trivial) fun _ =>
    Stays.bind quiet_ofResult fun _ => quiet_ofResult

theorem compensationAction_quiet {s : PaymentSnapshot} {action : Flow Unit}
    (h : compensationAction order paymentId requestId s = some action) : Quiet action := by
  unfold compensationAction at h
  split at h
  · cases h
    exact paymentOperation_quiet
  · split at h
    · cases h
      exact paymentOperation_quiet
    · cases h

theorem compensatePayment_quiet {rounds : Nat} :
    Quiet (compensatePayment order paymentId requestId rounds) := by
  induction rounds with
  | zero => exact Stays.pure
  | succ rounds ih =>
    refine Stays.attempt getPaymentSnapshot_quiet fun r => ?_
    cases r with
    | error e => exact Stays.pure
    | ok s =>
      refine Stays.ite Stays.pure ?_
      split
      · exact Stays.pure
      · rename_i action haction
        refine Stays.attempt (compensationAction_quiet haction) fun _ => ?_
        refine Stays.attempt getPaymentSnapshot_quiet fun r => ?_
        cases r with
        | error e => exact Stays.pure
        | ok after => exact Stays.ite Stays.pure ih

theorem compensatePaymentWithFence_quiet :
    Quiet (compensatePaymentWithFence order paymentId requestId fence) :=
  quiet_txThen (fun _ _ => trivial) fun _ =>
    Stays.bind (quiet_withCheckoutFence compensatePayment_quiet) fun _ =>
      Stays.ite (quiet_txThen (fun _ _ => trivial) fun _ => Stays.pure) Stays.pure

theorem enqueuePaymentCompensation_quiet :
    Quiet (enqueuePaymentCompensation order paymentId requestId fence) :=
  quiet_txThen (fun _ _ => trivial) fun _ => quiet_tx fun _ _ => trivial

theorem recoverCaptured_quiet : Quiet (recoverCaptured order paymentId requestId fence) :=
  Stays.bind enqueuePaymentCompensation_quiet fun _ =>
    Stays.bind compensatePaymentWithFence_quiet fun _ =>
      Stays.ite (quiet_txThen (fun _ _ => trivial) fun _ => Stays.pure) quiet_ofResult

theorem recoverFromLedger_quiet : Quiet (recoverFromLedger order requestId fence) := by
  refine quiet_txThen (fun _ _ => trivial) fun (found : Option PaymentId) => ?_
  cases found with
  | none => exact Stays.pure
  | some p =>
    refine Stays.bind getPaymentSnapshot_quiet fun s => ?_
    exact Stays.ite recoverCaptured_quiet quiet_ofResult

theorem recoverAuthorization_quiet {token : PaymentToken} {method : PaymentMethodType} :
    Quiet (recoverAuthorization order requestId token method fence) := by
  refine Stays.attempt authorizePayment_quiet fun r => ?_
  cases r with
  | ok a => exact Stays.pure
  | error e => exact Stays.ite recoverFromLedger_quiet Stays.pure

theorem applyRecovery_quiet {r : AuthorizationRecovery} :
    Quiet (applyRecovery input order lease e r) := by
  cases r with
  | recovered a => exact Stays.pure
  | absent =>
    exact quiet_txThen (fun _ _ => trivial) fun _ => Stays.ite Stays.pure quiet_ofResult
  | pending =>
    exact quiet_txThen (fun _ _ => trivial) fun _ => Stays.ite Stays.pure quiet_ofResult
  | failed recoveryError => exact quiet_txThen (fun _ _ => trivial) fun _ => quiet_ofResult

theorem handleAuthorizationError_quiet :
    Quiet (handleAuthorizationError input order lease e) := by
  refine Stays.ite (quiet_txThen (fun _ _ => trivial) fun _ => quiet_ofResult) ?_
  refine Stays.ite ?_ (quiet_txThen (fun _ _ => trivial) fun _ => quiet_ofResult)
  refine Stays.attempt (quiet_withCheckoutFence recoverAuthorization_quiet) fun r => ?_
  cases r with
  | ok recovery => exact applyRecovery_quiet
  | error _ => exact quiet_ofResult

theorem authorizeOrder_quiet : Quiet (authorizeOrder input order lease) := by
  refine Stays.attempt (quiet_withCheckoutFence authorizePayment_quiet) fun r => ?_
  cases r with
  | ok a => exact Stays.pure
  | error e => exact handleAuthorizationError_quiet

theorem forEachReservation_quiet {f : InventoryReservation → Flow Unit}
    {reservations : List InventoryReservation} (hf : ∀ r, Quiet (f r)) :
    Quiet (forEachReservation f reservations) := by
  induction reservations with
  | nil => exact Stays.pure
  | cons r rest ih => exact Stays.bind (hf r) fun _ => ih

theorem releaseInventory_quiet {reservations : List InventoryReservation}
    {first : Option ApiError} : Quiet (releaseInventory order fence first reservations) := by
  induction reservations generalizing first with
  | nil =>
    cases first with
    | none => exact Stays.pure
    | some e => exact quiet_ofResult
  | cons reservation rest ih =>
    simp only [releaseInventory]
    refine Stays.attempt (quiet_withCheckoutFence ?_) fun r => ?_
    · refine Stays.bind (quiet_call fun _ _ => trivial) fun reply => ?_
      split
      · exact Stays.pure
      · exact quiet_ofResult
    · cases r with
      | ok response => exact quiet_txThen (fun _ _ => trivial) fun _ => ih
      | error e => exact Stays.ite quiet_ofResult ih

theorem releaseInventoryWithRecovery_quiet {reservations : List InventoryReservation} :
    Quiet (releaseInventoryWithRecovery order reservations fence) := by
  refine Stays.bind (quiet_txThen (fun _ _ => trivial) fun _ =>
    forEachReservation_quiet fun r => quiet_tx fun _ _ => trivial) fun _ => ?_
  refine Stays.bind (forEachReservation_quiet fun r => quiet_tx fun _ _ => trivial) fun _ => ?_
  refine Stays.bind releaseInventory_quiet fun _ => ?_
  exact forEachReservation_quiet fun r =>
    quiet_txThen (fun _ _ => trivial) fun _ => quiet_tx fun _ _ => trivial

theorem compensateOrderPayment_quiet :
    Quiet (compensateOrderPayment order paymentId requestId fence) :=
  Stays.bind enqueuePaymentCompensation_quiet fun _ =>
    Stays.bind compensatePaymentWithFence_quiet fun _ =>
      Stays.ite (quiet_txThen (fun _ _ => trivial) fun _ => Stays.pure) Stays.pure

theorem undoOrder_quiet {released : Bool} :
    Quiet (undoOrder (α := α) order lease paymentId released e) :=
  Stays.bind compensateOrderPayment_quiet fun _ =>
    Stays.ite (quiet_txThen (fun _ _ => trivial) fun _ => quiet_ofResult) quiet_ofResult

theorem releaseAndUndo_quiet {reservations : List InventoryReservation} :
    Quiet (releaseAndUndo (α := α) order lease paymentId reservations e) := by
  refine Stays.attempt releaseInventoryWithRecovery_quiet fun r => ?_
  cases r with
  | ok u => exact undoOrder_quiet
  | error _ => exact undoOrder_quiet

theorem queueRecovery_quiet : Quiet (queueRecovery (α := α) input order lease paymentId e) :=
  quiet_txThen (fun _ _ => trivial) fun _ => quiet_ofResult

theorem leaveToReconciliation_quiet {message : String} :
    Quiet (leaveToReconciliation (α := α) input order lease paymentId message) :=
  quiet_txThen (fun _ _ => trivial) fun _ => quiet_ofResult

theorem finalizationDurable_quiet : Quiet (finalizationDurable order) := by
  refine Stays.attempt (quiet_tx fun _ _ => trivial) fun r => ?_
  cases r with
  | ok b => exact Stays.pure
  | error e => exact Stays.ite Stays.pure quiet_ofResult

theorem recordResponse_quiet {payload : CheckoutPayload} :
    Quiet (recordResponse lease payload) :=
  quiet_txThen (fun _ _ => trivial) fun _ =>
    Stays.ite (quiet_txThen (fun _ _ => trivial) fun _ => Stays.pure) Stays.pure

theorem endWithError_quiet : Quiet (endWithError lease e) :=
  Stays.ite (quiet_txThen (fun _ _ => trivial) fun _ => quiet_ofResult) quiet_ofResult

theorem recordFailure_quiet : Quiet (recordFailure lease e) := by
  refine Stays.attempt (quiet_tx fun _ _ => trivial) fun r => ?_
  cases r with
  | ok u => exact endWithError_quiet
  | error recordError => exact Stays.ite endWithError_quiet quiet_ofResult

end Quiet

section QuietWorkers

variable {job : PaymentReconciliationJob} {order : PendingOrder} {paymentId : PaymentId}
  {task : ClaimedTask} {fence : CheckoutFence}

theorem reconcileCapturedPaymentFailure_quiet {e : ApiError} :
    Quiet (reconcileCapturedPaymentFailure job order paymentId e) :=
  Stays.bind compensateOrderPayment_quiet fun _ =>
    Stays.ite (quiet_txThen (fun _ _ => trivial) fun _ => Stays.pure) quiet_ofResult

theorem completedOutcome_quiet : Quiet (completedOutcome order paymentId) :=
  quiet_txThen (fun _ _ => trivial) fun _ => Stays.pure

theorem observeSnapshot_quiet : Quiet (observeSnapshot job order paymentId) :=
  Stays.bind (quiet_withCheckoutFence getPaymentSnapshot_quiet) fun _ =>
    quiet_txThen (fun _ _ => trivial) fun _ => Stays.pure

theorem captureReconciled_quiet {s : PaymentSnapshot} :
    Quiet (captureReconciled job order paymentId s) :=
  Stays.ite (Stays.bind (quiet_withCheckoutFence paymentOperation_quiet) fun _ =>
    Stays.bind observeSnapshot_quiet fun _ => Stays.ite Stays.pure Stays.pure) Stays.pure

theorem jobPaymentId_quiet : Quiet (jobPaymentId job order) := by
  unfold jobPaymentId
  split
  · exact Stays.pure
  · exact quiet_tx fun _ _ => trivial

theorem attachPayment_quiet : Quiet (attachPayment job paymentId) :=
  Stays.ite Stays.pure (quiet_tx fun _ _ => trivial)

theorem settleJob_quiet {r : ApiResult PendingPaymentOutcome} : Quiet (settleJob job r) := by
  cases r with
  | ok outcome =>
    cases outcome with
    | retry | completed | failed => exact quiet_tx fun _ _ => trivial
  | error e => exact Stays.ite Stays.pure (quiet_tx fun _ _ => trivial)

theorem processCompensationTask_quiet : Quiet (processCompensationTask task) := by
  refine quiet_txThen (fun _ _ => trivial) fun (fence : CheckoutFence) => ?_
  refine quiet_txThen (fun _ _ => trivial) fun (order : PendingOrder) => ?_
  split
  · exact quiet_txThen (fun _ _ => trivial) fun _ =>
      Stays.bind releaseInventory_quiet fun _ => quiet_tx fun _ _ => trivial
  · exact Stays.ite (Stays.bind compensatePaymentWithFence_quiet fun _ =>
      Stays.ite Stays.pure quiet_ofResult) quiet_ofResult

theorem settleTask_quiet {r : ApiResult Unit} : Quiet (settleTask task r) := by
  cases r with
  | ok u => exact quiet_tx fun _ _ => trivial
  | error e => exact Stays.ite (quiet_tx fun _ _ => trivial) (quiet_tx fun _ _ => trivial)

theorem processOneCompensation_quiet {expired pick : Nat} :
    Quiet (processOneCompensation expired pick) := by
  refine quiet_txThen (fun _ _ => trivial) fun (buried : Bool) => ?_
  refine Stays.ite Stays.pure ?_
  refine quiet_txThen (fun _ _ => trivial) fun (claimed : Option ClaimedTask) => ?_
  cases claimed with
  | none => exact Stays.pure
  | some task =>
    refine Stays.attempt processCompensationTask_quiet fun r => ?_
    exact Stays.bind settleTask_quiet fun _ => Stays.pure

end QuietWorkers

/-! ## The contract with the stock -/

variable {K : Set (Fact ⊕ StockFact)}

/-- A program that leaves the stock alone ensures what it did. -/
theorem stock_quiet {x : Flow α} {P : α → Set Fact → Prop} (h : Ensures contract x (olds K) P)
    (hx : Quiet x) : Ensures stockContract x K fun a K' => P a (olds K') :=
  h.extend hx

theorem stock_sound {x : Flow α} (h : Sound contract x (olds K)) (hx : Quiet x) :
    Sound stockContract x K :=
  (h.extend hx).sound

/-- The same for a program that can only fail. -/
theorem stock_fails {x : Flow α} {P : α → Set (Fact ⊕ StockFact) → Prop}
    (h : Ensures contract x (olds K) fun _ _ => False) (hx : Quiet x) :
    Ensures stockContract x K P :=
  (h.extend hx).imp fun _ _ => False.elim

theorem stock_tx {t : Tx} {P : t.Result → Set (Fact ⊕ StockFact) → Prop}
    (hneeds : t.needs (olds K)) (hstock : stockNeeds (.tx t) (olds K) (news K))
    (h : ∀ a K', K ⊆ K' → t.learns a ⊆ olds K' → P a K') : Ensures stockContract (tx t) K P := by
  refine ⟨⟨hneeds, hstock⟩, ?_⟩
  rintro r - a ha
  cases ha
  exact h a _ Set.subset_union_left fun f hf => .inr ⟨a, rfl, hf⟩

theorem stock_call {q : Call} {P : q.Result → Set (Fact ⊕ StockFact) → Prop}
    (hneeds : q.needs (olds K)) (hstock : stockNeeds (.call q) (olds K) (news K))
    (h : ∀ r K', K ⊆ K' → stockAllows (.call q) r → stockLearns (.call q) r ⊆ news K' →
      P r K') : Ensures stockContract (call q) K P := by
  refine ⟨⟨hneeds, hstock⟩, ?_⟩
  rintro r ⟨-, hallows⟩ a ha
  cases ha
  exact h r _ Set.subset_union_left hallows fun f hf => .inr hf

theorem stock_ofResult {r : ApiResult α} {P : α → Set (Fact ⊕ StockFact) → Prop}
    (h : ∀ a, r = .ok a → P a K) : Ensures stockContract (ofResult r) K P := h

theorem stock_error {e : ApiError} {P : α → Set (Fact ⊕ StockFact) → Prop} :
    Ensures stockContract (ofResult (.error e)) K P := nofun

/-- The fence around an operation adds nothing to what the operation shows. -/
theorem stock_withCheckoutFence {fence : CheckoutFence} {operation : Flow α}
    {P : α → Set (Fact ⊕ StockFact) → Prop} (h : Ensures stockContract operation K P)
    (hP : ∀ a L L', L ⊆ L' → P a L → P a L') :
    Ensures stockContract (withCheckoutFence fence operation) K P := by
  have hassert : ∀ K, Sound stockContract (tx (.assertCheckoutFence fence)) K :=
    fun K => stock_sound (sound_tx trivial) (quiet_tx fun _ _ => trivial)
  have hstop : ∀ K, Sound stockContract stopHeartbeat K :=
    fun K => stock_sound sound_stopHeartbeat ⟨fun _ _ => trivial, fun _ => trivial⟩
  refine Sound.bind (hassert K) fun _ K₁ h₁ => ?_
  refine Sound.bind (stock_sound sound_startHeartbeat
    ⟨fun _ _ => trivial, fun _ => trivial⟩) fun _ K₂ h₂ => ?_
  refine (h.mono (h₁.trans h₂) hP).attempt (fun a K₃ h₃ ha => ?_) fun e K₃ h₃ => ?_
  · refine Sound.bind (hstop K₃) fun _ K₄ h₄ => ?_
    refine Sound.bind (hassert K₄) fun _ K₅ h₅ => ?_
    refine stock_ofResult fun b hb => ?_
    cases hb
    exact hP a K₃ K₅ (h₄.trans h₅) ha
  · refine Sound.bind (hstop K₃) fun _ K₄ h₄ => ?_
    refine Sound.bind (hassert K₄) fun _ K₅ h₅ => ?_
    exact stock_error

/-! ## Reserve and consume -/

/-- The reservations are those of the lines, in their order. -/
def Covered (order : PendingOrder) (reservations : List InventoryReservation)
    (lines : List OrderLine) : Prop :=
  reservations.map (fun r => (r.reservationId, r.sku, r.quantity)) =
    lines.map fun l => (.line order.id l.variantId, l.sku, l.quantity)

theorem covered_nil (order : PendingOrder) : Covered order [] [] := rfl

section Inventory

variable {order : PendingOrder} {fence : CheckoutFence} {requestId : RequestId}
  {reservations : List InventoryReservation}

theorem reserveOutcome_covers {line : OrderLine} {response : Response Inventory.ReserveOutcome}
    {r : InventoryReservation} (h : reserveOutcome order line response = .ok r) :
    r.reservationId = .line order.id line.variantId ∧ r.sku = line.sku ∧
      r.quantity = line.quantity := by
  unfold reserveOutcome at h
  split at h
  · cases h
  · split at h
    · cases h
    · split at h
      · cases h
      · cases h
        exact ⟨rfl, rfl, rfl⟩

theorem postReserve_stock {line : OrderLine} (hw : Working (olds K) order fence requestId)
    (hline : line ∈ order.lines) : Sound stockContract (postReserve order fence line) K := by
  refine Ensures.bind (P := fun _ _ => True) (stock_call trivial ?_ fun _ _ _ _ _ => trivial)
    fun reply K₁ _ _ => ?_
  · exact ⟨order, requestId, line, hline, hw.known, rfl, rfl, rfl, rfl, congrArg some hw.request⟩
  · split
    · exact Ensures.pure trivial
    · exact stock_error

theorem reserveInventory_stock {lines done : List OrderLine}
    (hw : Working (olds K) order fence requestId) (hlines : ∀ line ∈ lines, line ∈ order.lines)
    (hdone : Covered order reservations done) :
    Ensures stockContract (reserveInventory order fence reservations lines) K
      fun rs _ => Covered order rs (done ++ lines) := by
  induction lines generalizing K reservations done with
  | nil =>
    rw [List.append_nil]
    exact Ensures.pure hdone
  | cons line lines ih =>
    have habandon : ∀ {K rs e}, Ensures stockContract (abandonReservations order fence rs e) K
        fun rs _ => Covered order rs (done ++ line :: lines) :=
      stock_fails abandonReservations_ensures
        (Stays.bind releaseInventoryWithRecovery_quiet fun _ => quiet_ofResult)
    unfold reserveInventory
    refine Ensures.attempt (stock_withCheckoutFence
      (postReserve_stock hw (hlines line List.mem_cons_self)) fun _ _ _ _ _ => trivial)
      (fun response K₁ h₁ _ => ?_) fun e K₁ _ => habandon
    refine Sound.bind (stock_sound (sound_tx trivial) (quiet_tx fun _ _ => trivial))
      fun _ K₂ h₂ => ?_
    split
    · exact habandon
    · rename_i r hr
      have hcovered : Covered order (reservations ++ [r]) (done ++ [line]) := by
        obtain ⟨hid, hsku, hquantity⟩ := reserveOutcome_covers hr
        unfold Covered at hdone ⊢
        rw [List.map_append, List.map_append, hdone, List.map_singleton, List.map_singleton,
          hid, hsku, hquantity]
      have hrest := ih (hw.mono (olds_mono (h₁.trans h₂)))
        (fun l hl => hlines l (List.mem_cons_of_mem _ hl)) hcovered
      rw [List.append_assoc] at hrest
      exact hrest

theorem consumeOutcome_success {response : Response InventoryConsumeResponse} {u : Unit}
    (h : consumeOutcome order reservations response = .ok u) : response.isSuccess = true := by
  unfold consumeOutcome at h
  split at h
  · split at h <;> cases h
  · rename_i hsuccess
    simpa using hsuccess

/-- A consume that is answered with a success sold the order. -/
theorem postConsume_stock (hw : Working (olds K) order fence requestId)
    (hcaptured : .captured (paymentOf order.tenantId requestId) ∈ olds K)
    (hcovered : Covered order reservations order.lines) :
    Ensures stockContract (postConsume order reservations fence) K
      fun response K' => response.isSuccess = true → Sold (news K') order := by
  have hids : (consumeBody order reservations fence).reservations.map (·.reservationId) =
      order.lines.map fun l => .line order.id l.variantId := by
    have hmap := congrArg (List.map Prod.fst) hcovered
    simpa [consumeBody, Function.comp_def] using hmap
  have hrows : ∀ line ∈ order.lines, ∃ c ∈ (consumeBody order reservations fence).reservations,
      c.reservationId = .line order.id line.variantId ∧ c.sku = line.sku ∧
        c.quantity = line.quantity := by
    intro line hline
    have hmem := List.mem_map_of_mem (f := fun l : OrderLine =>
      (ReservationId.line order.id l.variantId, l.sku, l.quantity)) hline
    rw [← hcovered] at hmem
    obtain ⟨r, hr, heq⟩ := List.mem_map.mp hmem
    simp only [Prod.mk.injEq] at heq
    exact ⟨_, List.mem_map_of_mem hr, heq⟩
  have hnamed : ∀ c ∈ (consumeBody order reservations fence).reservations,
      ∃ v, c.reservationId = .line order.id v := by
    intro c hc
    have hmem := List.mem_map_of_mem (f := (·.reservationId)) hc
    rw [hids] at hmem
    obtain ⟨l, -, heq⟩ := List.mem_map.mp hmem
    exact ⟨l.variantId, heq.symm⟩
  refine Ensures.bind (P := fun reply K' => consumeSucceeded reply → Sold (news K') order)
    (stock_call ?_ ?_ fun reply K' _ hallows hlearns hdone => ?_) fun reply K₁ _ hreply => ?_
  · exact ⟨order, requestId, fence.generation.token, hw.known, rfl,
      congrArg some hw.request, rfl, hw.issued, hnamed⟩
  · exact ⟨order, requestId, hw.known, hcaptured, rfl, hnamed⟩
  · refine ⟨?_, fun line hline => ?_⟩
    · have hnodup := hallows hdone
      rw [hids] at hnodup
      exact List.Nodup.of_map (ReservationId.line order.id) (by rwa [List.map_map])
    · obtain ⟨c, hc, hid, hsku, hquantity⟩ := hrows line hline
      refine hlearns ⟨hdone, c, hc, ?_⟩
      rw [hid, hsku, hquantity]
      rfl
  · split
    · rename_i response
      exact Ensures.pure fun hsuccess => hreply ⟨response, rfl, hsuccess⟩
    · exact stock_error

theorem consumeInventoryAttempt_stock (hw : Working (olds K) order fence requestId)
    (hcaptured : .captured (paymentOf order.tenantId requestId) ∈ olds K)
    (hcovered : Covered order reservations order.lines) :
    Ensures stockContract (consumeInventoryAttempt order reservations fence) K
      fun _ K' => Sold (news K') order := by
  refine Ensures.bind (stock_withCheckoutFence (postConsume_stock hw hcaptured hcovered)
    fun _ _ _ hL h hs => (h hs).mono (news_mono hL)) fun response K₁ _ hsold => ?_
  refine Sound.bind (stock_sound (sound_tx trivial) (quiet_tx fun _ _ => trivial))
    fun _ K₂ h₂ => ?_
  exact stock_ofResult fun u hu => (hsold (consumeOutcome_success hu)).mono (news_mono h₂)

theorem consumeInventory_stock {retries : Nat} (hw : Working (olds K) order fence requestId)
    (hcaptured : .captured (paymentOf order.tenantId requestId) ∈ olds K)
    (hcovered : Covered order reservations order.lines) :
    Ensures stockContract (consumeInventory order reservations fence retries) K
      fun _ K' => Sold (news K') order := by
  induction retries generalizing K with
  | zero => exact consumeInventoryAttempt_stock hw hcaptured hcovered
  | succ retries ih =>
    refine Ensures.attempt (consumeInventoryAttempt_stock hw hcaptured hcovered)
      (fun _ K₁ _ hsold => Ensures.pure hsold) fun e K₁ h₁ => ?_
    dsimp only
    split
    · exact ih (hw.mono (olds_mono h₁)) (olds_mono h₁ hcaptured)
    · exact stock_error

end Inventory

/-! ## The request handler -/

section Handler

variable {input : CheckoutInput} {order : PendingOrder} {lease : CheckoutLease}
  {paymentId : PaymentId} {reservations : List InventoryReservation}

/-- The answer of the flow, as the old contract has it. -/
abbrev Responded (lease : CheckoutLease) (payload : CheckoutPayload)
    (K : Set (Fact ⊕ StockFact)) : Prop :=
  Responds lease payload (olds K)

theorem finalizeCheckout_stock (hw : Handles (olds K) order lease)
    (hp : paymentId = paymentOf order.tenantId lease.requestId)
    (hcaptured : .captured paymentId ∈ olds K) (hsold : Sold (news K) order) :
    Ensures stockContract (finalizeCheckout input order lease paymentId) K
      (Responded lease) := by
  refine Ensures.attempt (P := fun _ _ => True) (stock_tx
    ⟨lease.requestId, hw.known, hp, hcaptured⟩ hsold fun _ _ _ _ => trivial)
    (fun _ K₁ h₁ _ => Ensures.pure ((hw.mono (olds_mono h₁)).responds (.inr (.inl rfl)) rfl))
    fun e K₁ h₁ => ?_
  have hw₁ := hw.mono (olds_mono h₁)
  dsimp only
  split
  · exact stock_quiet (queueRecovery_ensures hw₁ hp) queueRecovery_quiet
  · refine Sound.bind (stock_sound finalizationDurable_ensures.sound finalizationDurable_quiet)
      fun b K₂ h₂ => ?_
    have hw₂ := hw₁.mono (olds_mono h₂)
    split
    · exact Ensures.pure (hw₂.responds (.inr (.inl rfl)) rfl)
    · exact stock_quiet (leaveToReconciliation_ensures hw₂ hp) leaveToReconciliation_quiet

theorem consumeOrder_stock (hw : Handles (olds K) order lease)
    (hp : paymentId = paymentOf order.tenantId lease.requestId)
    (hcaptured : .captured paymentId ∈ olds K)
    (hcovered : Covered order reservations order.lines) :
    Ensures stockContract (consumeOrder input order lease paymentId reservations) K
      (Responded lease) := by
  refine Ensures.attempt (consumeInventory_stock hw (hp ▸ hcaptured) hcovered)
    (fun _ K₁ h₁ hsold => finalizeCheckout_stock (hw.mono (olds_mono h₁)) hp
      (olds_mono h₁ hcaptured) hsold) fun e K₁ h₁ => ?_
  have hw₁ := hw.mono (olds_mono h₁)
  dsimp only
  split
  · exact stock_quiet (queueRecovery_ensures hw₁ hp) queueRecovery_quiet
  · split
    · exact stock_quiet (leaveToReconciliation_ensures hw₁ hp) leaveToReconciliation_quiet
    · exact stock_quiet (releaseAndUndo_ensures hw₁ hp) releaseAndUndo_quiet

theorem captureOrder_stock (hw : Handles (olds K) order lease)
    (hp : paymentId = paymentOf order.tenantId lease.requestId)
    (hcovered : Covered order reservations order.lines) :
    Ensures stockContract (captureOrder input order lease paymentId reservations) K
      (Responded lease) := by
  refine Ensures.attempt (stock_quiet (ensures_withCheckoutFence
    (capturePayment_ensures hw.known hp) fun _ _ _ hL h => hL h)
    (quiet_withCheckoutFence paymentOperation_quiet)) (fun _ K₁ h₁ hc => ?_) fun e K₁ h₁ => ?_
  · exact consumeOrder_stock (hw.mono (olds_mono h₁)) hp hc hcovered
  · have hw₁ := hw.mono (olds_mono h₁)
    dsimp only
    split
    · exact stock_quiet (queueRecovery_ensures hw₁ hp) queueRecovery_quiet
    · exact stock_quiet (releaseAndUndo_ensures hw₁ hp) releaseAndUndo_quiet

theorem reserveOrder_stock (hw : Handles (olds K) order lease)
    (hp : paymentId = paymentOf order.tenantId lease.requestId) :
    Ensures stockContract (reserveOrder input order lease paymentId) K (Responded lease) := by
  refine Ensures.attempt (reserveInventory_stock hw (fun _ => id) (covered_nil order))
    (fun rs K₁ h₁ hcovered => ?_) fun e K₁ h₁ => ?_
  · exact captureOrder_stock (hw.mono (olds_mono h₁)) hp hcovered
  · have hw₁ := hw.mono (olds_mono h₁)
    dsimp only
    split
    · exact stock_quiet (queueRecovery_ensures hw₁ hp) queueRecovery_quiet
    · exact stock_quiet (undoOrder_ensures hw₁ hp) undoOrder_quiet

theorem checkoutFlow_stock (ht : lease.tenantId = input.tenantId)
    (hissued : .issued lease.token ∈ olds K) :
    Ensures stockContract (checkoutFlow input lease) K (Responded lease) := by
  refine Sound.bind (stock_sound (sound_tx trivial) (quiet_tx fun _ _ => trivial))
    fun _ K₁ h₁ => ?_
  refine Sound.bind (stock_sound validateCatalog_sound ⟨fun _ _ => trivial, fun _ => trivial⟩)
    fun _ K₂ h₂ => ?_
  refine Sound.bind (stock_sound quoteWithRetry_sound
    (Stays.bind ⟨fun _ _ => trivial, fun _ => trivial⟩ fun _ =>
      Stays.bind quiet_ofResult fun _ => Stays.pure)) fun quote K₃ h₃ => ?_
  refine Ensures.bind (stock_quiet (ensures_tx (t := .createPendingOrder input quote lease)
    (P := fun (order : PendingOrder) K' => Known K' order lease.requestId ∧
      order.tenantId = input.tenantId) trivial fun order hallows => ?_)
    (quiet_tx fun _ _ => trivial)) fun (order : PendingOrder) K₄ h₄ ⟨hknown, htenant⟩ => ?_
  · exact ⟨⟨.inr (.inl rfl), .inr (.inr rfl)⟩, hallows⟩
  · have hw : Handles (olds K₄) order lease :=
      ⟨hknown, ht.trans htenant.symm, rfl,
        olds_mono (h₁.trans (h₂.trans (h₃.trans h₄))) hissued⟩
    refine Ensures.bind (stock_quiet (authorizeOrder_ensures hw) authorizeOrder_quiet)
      fun outcome K₅ h₅ hp => ?_
    have hw₅ := hw.mono (olds_mono h₅)
    cases outcome with
    | answered payload => exact Ensures.pure hp
    | authorized a =>
      dsimp only
      split
      · exact Sound.bind (stock_sound (sound_tx (register_needs hw₅ hp))
          (quiet_tx fun _ _ => trivial))
          fun _ K₆ h₆ => Ensures.pure ((hw₅.mono (olds_mono h₆)).responds (.inl rfl) rfl)
      · exact reserveOrder_stock hw₅ hp

theorem checkoutInner_stock : Sound stockContract (checkoutInner input) K := by
  refine Sound.bind (stock_sound sound_ofResult quiet_ofResult) fun _ K₁ _ => ?_
  refine Ensures.bind (stock_quiet (ensures_tx
    (t := .claimCheckoutAttempt input.tenantId input.requestId input)
    (P := fun (claim : CheckoutAttemptClaim) K' => ∀ token, claim = .new token →
      .issued token ∈ K') trivial fun claim _ => ?_) (quiet_tx fun _ _ => trivial))
    fun (claim : CheckoutAttemptClaim) K₂ _ hissued => ?_
  · exact fun token hnew => .inr ⟨token, hnew, rfl⟩
  · cases claim with
    | new token =>
      exact Ensures.attempt (checkoutFlow_stock rfl (hissued token rfl))
        (fun _ _ _ hr => stock_sound (recordResponse_sound hr) recordResponse_quiet)
        fun _ _ _ => stock_sound recordFailure_sound recordFailure_quiet
    | pending payload =>
      exact Sound.bind (stock_sound (sound_tx trivial) (quiet_tx fun _ _ => trivial))
        fun _ K₃ _ => Ensures.pure trivial
    | replay payload => exact Ensures.pure trivial
    | inProgress => exact stock_error
    | failed e => exact stock_error

end Handler

/-! ## The workers -/

section Workers

variable {job : PaymentReconciliationJob} {order : PendingOrder} {paymentId : PaymentId}

/-- The outcome of a job, as the old contract has it. -/
abbrev Concludes (job : PaymentReconciliationJob) (outcome : PendingPaymentOutcome)
    (K : Set (Fact ⊕ StockFact)) : Prop :=
  Completes job outcome (olds K)

theorem finalizeReconciled_stock (hw : Reconciles (olds K) job order)
    (hp : paymentId = paymentOf order.tenantId job.requestId)
    (hcaptured : .captured paymentId ∈ olds K) (hsold : Sold (news K) order) :
    Ensures stockContract (finalizeReconciled job order paymentId) K (Concludes job) := by
  refine Ensures.attempt (P := fun _ K' => .paid order.tenantId order.id ∈ olds K')
    (stock_tx ⟨job.requestId, hw.working.known, hp, hcaptured⟩ hsold
      fun _ _ _ hlearns => hlearns rfl) (fun _ K₁ h₁ hpaid => ?_) fun e K₁ h₁ => ?_
  · exact stock_quiet (completedOutcome_ensures (hw.mono (olds_mono h₁)) hpaid)
      completedOutcome_quiet
  · have hw₁ := hw.mono (olds_mono h₁)
    dsimp only
    split
    · exact stock_error
    · refine Ensures.bind (stock_quiet finalizationDurable_ensures finalizationDurable_quiet)
        fun b K₂ h₂ hb => ?_
      cases b with
      | false => exact stock_error
      | true =>
        exact stock_quiet (completedOutcome_ensures (hw₁.mono (olds_mono h₂)) (hb rfl))
          completedOutcome_quiet

theorem fulfillReconciled_stock (hw : Reconciles (olds K) job order)
    (hp : paymentId = paymentOf order.tenantId job.requestId)
    (hcaptured : .captured paymentId ∈ olds K) :
    Ensures stockContract (fulfillReconciled job order paymentId) K (Concludes job) := by
  refine Ensures.attempt (reserveInventory_stock hw.working (fun _ => id) (covered_nil order))
    (fun rs K₁ h₁ hcovered => ?_) fun e K₁ h₁ => ?_
  · have hw₁ := hw.mono (olds_mono h₁)
    have hcaptured₁ := olds_mono h₁ hcaptured
    refine Ensures.attempt (consumeInventory_stock hw₁.working (hp ▸ hcaptured₁) hcovered)
      (fun _ K₂ h₂ hsold => ?_) fun e K₂ h₂ => ?_
    · exact finalizeReconciled_stock (hw₁.mono (olds_mono h₂)) hp (olds_mono h₂ hcaptured₁) hsold
    · have hw₂ := hw₁.mono (olds_mono h₂)
      dsimp only
      split
      · exact stock_error
      · refine Sound.attempt (stock_sound releaseInventoryWithRecovery_sound
          releaseInventoryWithRecovery_quiet) fun _ K₃ h₃ => ?_
        exact stock_quiet (reconcileCapturedPaymentFailure_ensures (hw₂.mono (olds_mono h₃)) hp)
          reconcileCapturedPaymentFailure_quiet
  · dsimp only
    split
    · exact stock_error
    · exact stock_quiet (reconcileCapturedPaymentFailure_ensures (hw.mono (olds_mono h₁)) hp)
        reconcileCapturedPaymentFailure_quiet

theorem reconcilePayment_stock (hw : Reconciles (olds K) job order)
    (hp : paymentId = paymentOf order.tenantId job.requestId) :
    Ensures stockContract (reconcilePayment job order paymentId) K (Concludes job) := by
  refine Ensures.bind (stock_quiet observeSnapshot_ensures observeSnapshot_quiet)
    fun s K₁ h₁ hs => ?_
  have hw₁ := hw.mono (olds_mono h₁)
  split
  · rename_i outcome hverdict
    exact Ensures.pure (snapshotVerdict_completes hverdict)
  · refine Ensures.bind (stock_quiet (captureReconciled_ensures hw₁ hp hs)
      captureReconciled_quiet) fun found K₂ h₂ hfound => ?_
    cases found with
    | none => exact Ensures.pure nofun
    | some s' =>
      dsimp only
      split
      · rename_i hexact
        exact fulfillReconciled_stock (hw₁.mono (olds_mono h₂)) hp
          ((hfound s' rfl).captured hexact)
      · exact Ensures.pure nofun

theorem reconcileOrder_stock (hw : Reconciles (olds K) job order)
    (hjob : ∀ p, job.paymentId = some p → p = paymentOf job.tenantId job.requestId) :
    Ensures stockContract (reconcileOrder job order) K (Concludes job) := by
  have ht : job.tenantId = order.tenantId := hw.working.tenant
  refine Ensures.bind (stock_quiet (jobPaymentId_ensures hw hjob) jobPaymentId_quiet)
    fun found K₁ h₁ hfound => ?_
  cases found with
  | none => exact Ensures.pure nofun
  | some p =>
    have hp := hfound p rfl
    refine Sound.bind (stock_sound (attachPayment_sound (ht ▸ hp)) attachPayment_quiet)
      fun _ K₂ h₂ => ?_
    exact reconcilePayment_stock (hw.mono (olds_mono (h₁.trans h₂))) hp

theorem reconcilePendingPayment_stock
    (hof : .ofRequest job.tenantId job.orderId job.requestId ∈ olds K)
    (hissued : .issued job.parentLeaseToken ∈ olds K)
    (hjob : ∀ p, job.paymentId = some p → p = paymentOf job.tenantId job.requestId) :
    Ensures stockContract (reconcilePendingPayment job) K (Concludes job) := by
  unfold reconcilePendingPayment
  split
  · refine Sound.bind (stock_sound (sound_tx trivial) (quiet_tx fun _ _ => trivial))
      fun _ K₁ h₁ => ?_
    refine Ensures.bind (stock_quiet (ensures_tx
      (t := .loadPendingOrder job.tenantId job.orderId)
      (P := fun (order : PendingOrder) K' => .stored order ∈ K' ∧
        order.tenantId = job.tenantId ∧ order.id = job.orderId) trivial
      fun order hallows => ⟨.inr rfl, hallows⟩) (quiet_tx fun _ _ => trivial))
      fun (order : PendingOrder) K₂ h₂ ⟨hstored, ht, hid⟩ => ?_
    have hsub := olds_mono (h₁.trans h₂)
    have hw : Reconciles (olds K₂) job order := by
      refine ⟨⟨⟨hstored, ?_⟩, ht.symm, rfl, hsub hissued⟩, hid⟩
      rw [ht, hid]
      exact hsub hof
    split
    · exact reconcileOrder_stock hw hjob
    · exact Ensures.pure nofun
  · exact Ensures.pure nofun

theorem processOnePaymentReconciliation_stock {pick : TenantId × RequestId} :
    Sound stockContract (processOnePaymentReconciliation pick) K := by
  refine Sound.bind (stock_sound (sound_tx trivial) (quiet_tx fun _ _ => trivial))
    fun (reclaimed : Bool) K₁ _ => ?_
  split
  · exact Ensures.pure trivial
  · refine Ensures.bind (stock_quiet (ensures_tx (t := .claimPaymentReconciliation pick)
      (P := fun (claimed : Option PaymentReconciliationJob) K' => ∀ job, claimed = some job →
        .ofRequest job.tenantId job.orderId job.requestId ∈ K' ∧
        .issued job.parentLeaseToken ∈ K' ∧
        ∀ p, job.paymentId = some p → p = paymentOf job.tenantId job.requestId) trivial
      fun claimed hallows job hjob => ?_) (quiet_tx fun _ _ => trivial))
      fun (claimed : Option PaymentReconciliationJob) K₂ h₂ hclaimed => ?_
    · exact ⟨.inr ⟨job, hjob, .inl rfl⟩, .inr ⟨job, hjob, .inr rfl⟩, hallows job hjob⟩
    · cases claimed with
      | none => exact Ensures.pure trivial
      | some job =>
        obtain ⟨hof, hissued, hjob⟩ := hclaimed job rfl
        refine Ensures.attempt (reconcilePendingPayment_stock hof hissued hjob)
          (fun outcome K₃ h₃ hout => ?_) fun e K₃ h₃ => ?_
        · refine Sound.bind (stock_sound (settleJob_sound (olds_mono h₃ hof)
            fun outcome' ho => ?_) settleJob_quiet) fun _ K₄ _ => Ensures.pure trivial
          cases ho
          exact hout
        · exact Sound.bind (stock_sound (settleJob_sound (olds_mono h₃ hof) nofun)
            settleJob_quiet) fun _ K₄ _ => Ensures.pure trivial

theorem processOneCompensation_stock {expired pick : Nat} :
    Sound stockContract (processOneCompensation expired pick) K :=
  stock_sound processOneCompensation_sound processOneCompensation_quiet

end Workers

end CommercePlayground.Checkout
