/-
CommercePlayground.Checkout.FinalizationTheorems — what `finalize_order` does.

A finalization that commits pays one pending order, checks out one active
cart, redeems the order's promotion once, and makes sure of one event
(`Finalizes`).
-/
import CommercePlayground.Checkout.RowTheorems

namespace CommercePlayground.Checkout

open Lib

/-- The `{order_id}:paid` event of an order. -/
def isPaidEvent (tenantId : TenantId) (orderId : OrderId) (e : OutboxEvent) : Bool :=
  decide (e.tenantId = tenantId ∧ e.orderId = orderId)

/-- The promotions after a redemption. -/
def redeemed (now : Nat) (order : PendingOrder) (t : List Promotion) : List Promotion :=
  match redeemedCode order with
  | none => t
  | some code => updateWhere (isRedeemable now order.tenantId code)
      (fun p => { p with redemptionCount := p.redemptionCount + 1 }) t

/-- A committed finalization. -/
structure Finalizes (order : PendingOrder) (paymentId : PaymentId) (db db' : Db) : Prop where
  one : affected (isPendingOrder order.tenantId order.id) db.checkout.orders = 1
  active : affected (isActiveCart order) db.checkout.carts = 1
  redeemable : ∀ code, redeemedCode order = some code →
    affected (isRedeemable db.now order.tenantId code) db.checkout.promotions = 1
  orders : db'.checkout.orders = updateWhere (isPendingOrder order.tenantId order.id)
    (fun o => { o with status := .paid }) db.checkout.orders
  carts : db'.checkout.carts = updateWhere (isActiveCart order)
    (fun c => { c with status := .checkedOut }) db.checkout.carts
  promotions : db'.checkout.promotions = redeemed db.now order db.checkout.promotions
  outbox : db'.checkout.outbox = insertMissing (isPaidEvent order.tenantId order.id)
    (paidEvent order paymentId) db.checkout.outbox

theorem redeemPromotion_ok {order : PendingOrder} {db db' : Db}
    (h : redeemPromotion order db = .ok db') :
    db' = setPromotions db (redeemed db.now order db.checkout.promotions) ∧
      ∀ code, redeemedCode order = some code →
        affected (isRedeemable db.now order.tenantId code) db.checkout.promotions = 1 := by
  unfold redeemPromotion at h
  unfold redeemed
  split at h
  · rename_i hnone
    cases h
    rw [hnone]
    exact ⟨rfl, nofun⟩
  · rename_i code hcode
    simp only at h
    split at h
    · rename_i hone
      cases h
      rw [hcode]
      refine ⟨rfl, fun code' hcode' => ?_⟩
      cases hcode'
      exact hone
    · cases h

theorem insertPaidEvent_outbox (order : PendingOrder) (paymentId : PaymentId) (db : Db) :
    insertPaidEvent order paymentId db = setOutbox db (insertMissing
      (isPaidEvent order.tenantId order.id) (paidEvent order paymentId) db.checkout.outbox) := by
  unfold insertPaidEvent insertMissing
  split
  · rename_i hany
    rw [if_pos (by exact hany)]
    rfl
  · rename_i hany
    rw [if_neg (by exact hany)]

theorem finalizeOrder_ok {order : PendingOrder} {paymentId : PaymentId} {fence : CheckoutFence}
    {db db' : Db} {u : Unit} (h : finalizeOrder order paymentId fence db = .ok (u, db')) :
    Finalizes order paymentId db db' := by
  obtain ⟨_, -, h⟩ := bind_ok h
  obtain ⟨_, hone, h⟩ := bind_ok h
  obtain ⟨_, hcart, h⟩ := bind_ok h
  obtain ⟨db₃, hredeem, h⟩ := bind_ok h
  have hone' := require_ok hone
  have hcart' := require_ok hcart
  simp only [Bool.and_eq_true, decide_eq_true_eq] at hone' hcart'
  obtain ⟨rfl, hredeemable⟩ := redeemPromotion_ok hredeem
  simp only [insertPaidEvent_outbox] at h
  cases h
  exact ⟨hone'.1, hcart', hredeemable, rfl, rfl, rfl, rfl⟩

end CommercePlayground.Checkout
