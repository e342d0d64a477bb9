/-
CommercePlayground.Checkout.Stock — what a checkout process knows of the stock.

A process reserves the lines of its order, consumes them once the payment is captured, and
finalizes the order once they are consumed. The contract of `Contract` says nothing of
this; `stock` extends it by the one fact that links the three, a consumed reservation, and
by what a reserve, a consume and a finalization need.
-/
import CommercePlayground.Lib.Extension
import CommercePlayground.Checkout.Contract

namespace CommercePlayground.Checkout

open Lib

/-- What a process can know of the stock for good. -/
inductive StockFact where
  /-- The reservation is consumed, with this SKU and quantity. -/
  | consumed (tenantId : TenantId) (id : ReservationId) (sku : Sku) (quantity : Nat)

/-- The reservation of an order line is consumed. -/
def lineConsumed (order : PendingOrder) (line : OrderLine) : StockFact :=
  .consumed order.tenantId (.line order.id line.variantId) line.sku line.quantity

/-- Every line of the order has a reservation of its own, which is consumed. -/
structure Sold (L : Set StockFact) (order : PendingOrder) : Prop where
  distinct : (order.lines.map (·.variantId)).Nodup
  consumed : ∀ line ∈ order.lines, lineConsumed order line ∈ L

theorem Sold.mono {L L' : Set StockFact} {order : PendingOrder} (h : Sold L order)
    (hL : L ⊆ L') : Sold L' order :=
  ⟨h.distinct, fun line hline => hL (h.consumed line hline)⟩

/-- A reserve asks for a line of the request's order. -/
def reserveNeeds (q : Inventory.ReserveQuery) (K : Set Fact) : Prop :=
  ∃ order requestId, ∃ line ∈ order.lines, Known K order requestId ∧
    q.tenantId = order.tenantId ∧ q.reservationId = .line order.id line.variantId ∧
    q.sku = line.sku ∧ q.quantity = line.quantity ∧ q.checkoutRequestId = some requestId

/-- A consume takes lines of an order whose payment is captured. -/
def consumeNeeds (q : Inventory.ConsumeBody) (K : Set Fact) : Prop :=
  ∃ order requestId, Known K order requestId ∧
    .captured (paymentOf order.tenantId requestId) ∈ K ∧ q.tenantId = order.tenantId ∧
    ∀ r ∈ q.reservations, ∃ v, r.reservationId = .line order.id v

/-- The answer to a consume says that it was done. -/
def consumeSucceeded (r : Option (Response InventoryConsumeResponse)) : Prop :=
  ∃ response, r = some response ∧ response.isSuccess = true

def stockNeeds : Effect → Set Fact → Set StockFact → Prop
  | .tx (.finalizeOrder order _ _), _, L => Sold L order
  | .call (.reserve q), K, _ => reserveNeeds q K
  | .call (.consume q), K, _ => consumeNeeds q K
  | _, _, _ => True

def stockAllows : (e : Effect) → e.Result → Prop
  | .call (.consume q), (r : Option (Response InventoryConsumeResponse)) =>
    consumeSucceeded r → (q.reservations.map (·.reservationId)).Nodup
  | _, _ => True

def stockLearns : (e : Effect) → e.Result → Set StockFact
  | .call (.consume q), (r : Option (Response InventoryConsumeResponse)) =>
    { f | consumeSucceeded r ∧ ∃ c ∈ q.reservations,
      f = .consumed q.tenantId c.reservationId c.sku c.quantity }
  | _, _ => ∅

theorem reserveNeeds_mono {q : Inventory.ReserveQuery} {K K' : Set Fact} (hK : K ⊆ K')
    (h : reserveNeeds q K) : reserveNeeds q K' := by
  obtain ⟨order, requestId, line, hline, hknown, hrest⟩ := h
  exact ⟨order, requestId, line, hline, hknown.mono hK, hrest⟩

theorem consumeNeeds_mono {q : Inventory.ConsumeBody} {K K' : Set Fact} (hK : K ⊆ K')
    (h : consumeNeeds q K) : consumeNeeds q K' := by
  obtain ⟨order, requestId, hknown, hcaptured, hrest⟩ := h
  exact ⟨order, requestId, hknown.mono hK, hK hcaptured, hrest⟩

/-- What the stock adds to the contract. -/
def stock : Extension Effect Effect.Result Fact StockFact where
  needs := stockNeeds
  allows := stockAllows
  learns := stockLearns
  needs_mono := by
    intro e K K' L L' hK hL h
    cases e with
    | tx t =>
      cases t with
      | finalizeOrder => exact Sold.mono h hL
      | _ => trivial
    | call c =>
      cases c with
      | reserve q => exact reserveNeeds_mono hK h
      | consume q => exact consumeNeeds_mono hK h
      | payment | getPayment | release => trivial
    | catalog | pricing | startHeartbeat | stopHeartbeat => trivial

/-- The contract with the stock. -/
def stockContract : Contract Effect Effect.Result (Fact ⊕ StockFact) := contract.extend stock

end CommercePlayground.Checkout
