/-
CommercePlayground.Checkout.RowTheorems — the rows of the checkout tables only
move forward.

No row is deleted. A pending order is closed once (`SameOrder`), a paid attempt
stays paid and only a started one changes its generation (`SameAttempt`), a
task keeps what it is about (`SameTask`).
-/
import CommercePlayground.Checkout.FencingTheorems

namespace CommercePlayground.Checkout

open Lib

/-! ## Orders -/

/-- What happens to an order: a pending one gets a status. -/
def SameOrder (o o' : Order) : Prop :=
  ∃ st, o' = { o with status := st } ∧ (o.status ≠ .pending → st = o.status)

theorem SameOrder.refl (o : Order) : SameOrder o o := ⟨o.status, rfl, fun _ => rfl⟩

/-- What happens to an attempt once it is paid or failed: a paid one stays
paid, and a failed one keeps its generation until it is paid. -/
structure SameAttempt (a a' : CheckoutAttempt) : Prop where
  tenantId : a'.tenantId = a.tenantId
  requestId : a'.requestId = a.requestId
  paid : a.status = .paid → a'.status = .paid
  token : a.status ≠ .started → a'.leaseToken = a.leaseToken

theorem SameAttempt.refl (a : CheckoutAttempt) : SameAttempt a a :=
  ⟨rfl, rfl, fun h => h, fun _ => rfl⟩

/-- The table of orders after a write. -/
inductive OrderWrite (tx : Tx) (db : Db) : List Order → Prop where
  | same : OrderWrite tx db db.checkout.orders
  | insert {input : CheckoutInput} {quote : QuoteResponse} {lease : CheckoutLease}
      {cartId : CartId} {totals : QuoteTotals} {lines : List OrderLine}
      (htx : tx = .createPendingOrder input quote lease)
      (hcart : checkCart input cartId db = .ok ())
      (hnew : orderOfRequest db input.tenantId lease.requestId = none) :
      OrderWrite tx db
        (db.checkout.orders ++ [newOrder input lease cartId totals lines db.nextUuid])
  | cancel {t : TenantId} {id : OrderId} (h : Cancels tx db t id) :
      OrderWrite tx db (updateWhere (isPendingOrder t id)
        (fun o => { o with status := .cancelled }) db.checkout.orders)
  | pay {order : PendingOrder} {paymentId : PaymentId} {fence : CheckoutFence}
      (htx : tx = .finalizeOrder order paymentId fence) :
      OrderWrite tx db (updateWhere (isPendingOrder order.tenantId order.id)
        (fun o => { o with status := .paid }) db.checkout.orders)

theorem insertPaidEvent_orders (order : PendingOrder) (paymentId : PaymentId) (db : Db) :
    (insertPaidEvent order paymentId db).checkout.orders = db.checkout.orders := by
  unfold insertPaidEvent
  split <;> rfl

theorem Change.orders {tx : Tx} {db db' : Db} (h : Change tx db db') :
    OrderWrite tx db db'.checkout.orders := by
  cases h with
  | order htx hcart hnew => exact .insert htx hcart hnew
  | cancel hc => exact .cancel hc
  | pay htx =>
    rw [insertPaidEvent_orders]
    exact .pay htx
  | cart =>
    rw [ensureCart_orders]
    exact .same
  | redeem htx hr =>
    obtain ⟨t, rfl⟩ := redeemPromotion_frame hr
    exact .same
  | openAttempt | reclaim | attempts | uuid | checkOut | exposure | analytics | task | tasks | claimTask
  | reconciliation | reconciliations | claimReconciliation => exact .same

theorem isPendingOrder_status {t : TenantId} {id : OrderId} {o : Order}
    (h : isPendingOrder t id o = true) : o.status = .pending := by
  simp only [isPendingOrder, Bool.and_eq_true, decide_eq_true_eq] at h
  exact h.2

theorem OrderWrite.evolves {tx : Tx} {db : Db} {t : List Order} (h : OrderWrite tx db t) :
    Evolves SameOrder db.checkout.orders t := by
  -- both updates write the status of a pending order
  have hclose : ∀ {sel : Order → Bool} {st : OrderStatus},
      (∀ o, sel o = true → o.status = .pending) →
      Evolves SameOrder db.checkout.orders
        (updateWhere sel (fun o => { o with status := st }) db.checkout.orders) := by
    intro sel st hsel
    exact Evolves.update SameOrder.refl fun o _ ho =>
      ⟨st, rfl, fun hne => absurd (hsel o ho) hne⟩
  cases h with
  | same => exact Evolves.refl SameOrder.refl _
  | insert => exact Evolves.insert SameOrder.refl _ _
  | cancel => exact hclose fun o => isPendingOrder_status
  | pay => exact hclose fun o => isPendingOrder_status

/-! ## Attempts and tasks -/

theorem AttemptMove.not_paid {tx : Tx} {db : Db} {a a' : CheckoutAttempt}
    (h : AttemptMove tx db a a') : a.status ≠ .paid := by
  have hsettled : ∀ {job : PaymentReconciliationJob}, isSettledBy job a = true →
      a.status ≠ .paid := by
    intro job hsel hp
    simp only [isSettledBy, Bool.and_eq_true, decide_eq_true_eq] at hsel
    rcases hsel.1.2 with hs | hs | hs <;> rw [hs] at hp <;> cases hp
  intro hp
  cases h with
  | extend hs => rw [hs] at hp; cases hp
  | link htx hsel =>
    simp only [isLinkable, Bool.and_eq_true, decide_eq_true_eq] at hsel
    rw [hsel.1.2] at hp
    cases hp
  | respond htx hsel => rw [(isLiveLease_generation hsel).2] at hp; cases hp
  | replay hs => rw [hs] at hp; cases hp
  | reconciled htx hsel => exact hsettled hsel hp
  | fail htx hsel => rw [(isLiveLease_generation hsel).2] at hp; cases hp
  | failReconciled htx hsel => exact hsettled hsel hp

/-- The table of attempts after a write. -/
inductive AttemptWrite (tx : Tx) (db : Db) : List CheckoutAttempt → Prop where
  | same : AttemptWrite tx db db.checkout.attempts
  | insert {t : TenantId} {r : RequestId} {fingerprint : CheckoutInput} :
      AttemptWrite tx db (db.checkout.attempts ++ [newAttempt db t r fingerprint])
  | move {sel : CheckoutAttempt → Bool} {f : CheckoutAttempt → CheckoutAttempt}
      (h : ∀ a ∈ db.checkout.attempts, sel a = true → AttemptMove tx db a (f a)) :
      AttemptWrite tx db (updateWhere sel f db.checkout.attempts)
  | reclaim {sel : CheckoutAttempt → Bool}
      (h : ∀ a, sel a = true → a.status = .started) :
      AttemptWrite tx db (updateWhere sel (reclaimed db.now db.nextUuid)
        db.checkout.attempts)

theorem Change.attemptWrite {tx : Tx} {db db' : Db} (h : Change tx db db') :
    AttemptWrite tx db db'.checkout.attempts := by
  cases h with
  | openAttempt => exact .insert
  | attempts hmove => exact .move hmove
  | reclaim =>
    refine .reclaim fun b hsel => ?_
    simp only [Bool.and_eq_true, decide_eq_true_eq] at hsel
    exact hsel.1.2
  | cart => unfold ensureCart; split <;> exact .same
  | pay => unfold insertPaidEvent; split <;> exact .same
  | redeem htx hr =>
    obtain ⟨t, rfl⟩ := redeemPromotion_frame hr
    exact .same
  | uuid | order | cancel | checkOut | exposure | analytics | task | tasks | claimTask | reconciliation
  | reconciliations | claimReconciliation => exact .same

/-- A relation that every move and every reclaim respects holds between an
attempt and what a write makes of it. -/
theorem AttemptWrite.evolves {R : CheckoutAttempt → CheckoutAttempt → Prop} {tx : Tx}
    {db : Db} {t : List CheckoutAttempt} (h : AttemptWrite tx db t) (hrefl : ∀ a, R a a)
    (hmove : ∀ a a', AttemptMove tx db a a' → R a a')
    (hreclaim : ∀ a, a.status = .started → R a (reclaimed db.now db.nextUuid a)) :
    Evolves R db.checkout.attempts t := by
  cases h with
  | same => exact Evolves.refl hrefl _
  | insert => exact Evolves.insert hrefl _ _
  | move hm => exact Evolves.update hrefl fun a ha hsel => hmove a _ (hm a ha hsel)
  | reclaim hs => exact Evolves.update hrefl fun a _ hsel => hreclaim a (hs a hsel)

theorem Change.attempts_evolve {tx : Tx} {db db' : Db} (h : Change tx db db') :
    Evolves SameAttempt db.checkout.attempts db'.checkout.attempts := by
  refine h.attemptWrite.evolves SameAttempt.refl (fun a a' hmove => ?_) fun a hs => ?_
  · obtain ⟨h1, h2, h3⟩ := hmove.same
    exact ⟨h1, h2, fun hp => absurd hp hmove.not_paid, fun _ => h3⟩
  · refine ⟨rfl, rfl, fun hp => ?_, fun hne => absurd hs hne⟩
    rw [hs] at hp
    cases hp

theorem Change.tasks_evolve {tx : Tx} {db db' : Db} (h : Change tx db db') :
    Evolves SameTask db.checkout.tasks db'.checkout.tasks := by
  cases h with
  | task => exact Evolves.insert SameTask.refl _ _
  | tasks hmove =>
    exact Evolves.update SameTask.refl fun t ht hsel => (hmove t ht hsel).same
  | claimTask => exact Evolves.update SameTask.refl fun _ _ _ => ⟨rfl, rfl, rfl, rfl, rfl⟩
  | reclaim => exact Evolves.update SameTask.refl fun _ _ _ => ⟨rfl, rfl, rfl, rfl, rfl⟩
  | cart => unfold ensureCart; split <;> exact Evolves.refl SameTask.refl _
  | pay => unfold insertPaidEvent; split <;> exact Evolves.refl SameTask.refl _
  | redeem htx hr =>
    obtain ⟨t, rfl⟩ := redeemPromotion_frame hr
    exact Evolves.refl SameTask.refl _
  | openAttempt | attempts | uuid | order | cancel | checkOut | exposure | analytics | reconciliation
  | reconciliations | claimReconciliation => exact Evolves.refl SameTask.refl _

end CommercePlayground.Checkout
