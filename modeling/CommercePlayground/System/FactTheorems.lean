/-
CommercePlayground.System.FactTheorems — the facts of the contract hold, and go
on holding.

`Holds` says what each fact means in the database. The rows of orders, tasks
and payments only move forward (`SamePayment`), so a fact that holds once
holds for ever (`facts_change`, `facts_committed`).
-/
import CommercePlayground.Checkout.Contract
import CommercePlayground.Checkout.RowTheorems
import CommercePlayground.Payment.LedgerTheorems

namespace CommercePlayground.System

open Lib Checkout

/-! ## What the facts mean -/

/-- A fact holds in a database. -/
def Holds (db : Db) : Fact → Prop
  | .stored order =>
    ∃ o ∈ db.checkout.orders, pendingOrder o order.sessionId = order
  | .ofRequest tenantId orderId requestId => ∃ o ∈ db.checkout.orders,
      o.tenantId = tenantId ∧ o.id = orderId ∧ o.checkoutRequestId = requestId
  | .captured paymentId => ∃ p ∈ db.payment.payments,
      p.id = paymentId ∧ p.capturedAmountMinor = p.amountMinor
  | .settled paymentId => ∃ p ∈ db.payment.payments,
      p.id = paymentId ∧ PaymentStore.isActive p = false
  | .paid tenantId orderId => ∃ o ∈ db.checkout.orders,
      o.tenantId = tenantId ∧ o.id = orderId ∧ o.status = .paid
  | .issued token => token < db.nextUuid
  | .claimed task => ∃ t ∈ db.checkout.tasks, t.id = task.id ∧ t.tenantId = task.tenantId ∧
      t.orderId = task.orderId ∧ t.kind = task.kind

/-- Everything that holds. -/
def facts (db : Db) : Set Fact := { f | Holds db f }

/-! ## Payments move forward -/

/-- What happens to a payment: its identity stays, a full capture stays, and a
settled one is not touched. -/
structure SamePayment (p p' : Payment) : Prop where
  identity : PaymentStore.SameIdentity p p'
  captured : p.capturedAmountMinor = p.amountMinor →
    p'.capturedAmountMinor = p'.amountMinor
  settled : PaymentStore.isActive p = false → p' = p

theorem SamePayment.refl (p : Payment) : SamePayment p p :=
  ⟨PaymentStore.SameIdentity.refl p, fun h => h, fun _ => rfl⟩

/-- A payment that holds all it can captures no more, and one that holds
nothing is left alone. -/
theorem PaymentEffect.payments {Q : PaymentStore.Scope} {db db' : Db}
    (hinv : PaymentStore.StoreInv db) (h : PaymentStore.Effect Q db db') :
    Evolves SamePayment db.payment.payments db'.payment.payments := by
  intro p hp
  by_cases hact : PaymentStore.isActive p = false
  · exact ⟨p, hinv.inactive_kept h p hp hact, SamePayment.refl p⟩
  · -- every other update keeps the captured amount
    have hmove : ∀ {sel : Payment → Bool} {f : Payment → Payment},
        (∀ q, PaymentStore.SameIdentity q (f q)) →
        (∀ q ∈ db.payment.payments, sel q = true → q.capturedAmountMinor = q.amountMinor →
          (f q).capturedAmountMinor = (f q).amountMinor) →
        ∃ p' ∈ updateWhere sel f db.payment.payments, SamePayment p p' := by
      intro sel f hid hcap
      cases hs : sel p with
      | false => exact ⟨p, mem_updateWhere_of_not hp hs, SamePayment.refl p⟩
      | true =>
        exact ⟨f p, mem_updateWhere_of_pos hp hs, hid p, hcap p hp hs,
          fun h => absurd h hact⟩
    cases h with
    | refl => exact ⟨p, hp, SamePayment.refl p⟩
    | refuse => exact ⟨p, hp, SamePayment.refl p⟩
    | quarantine =>
      exact hmove (fun _ => ⟨rfl, rfl, rfl, rfl, rfl, rfl, rfl⟩) fun _ _ _ hc => hc
    | resolve =>
      exact hmove (fun q => PaymentStore.sameIdentity_resolve _ _ q) fun _ _ _ hc => hc
    | act hq hvalid hnew heff =>
      cases heff with
      | authorize => exact ⟨p, List.mem_append_left _ hp, SamePayment.refl p⟩
      | @capture r m amount hm hmem ht hproof hst hpos hle =>
        refine hmove (fun _ => ⟨rfl, rfl, rfl, rfl, rfl, rfl, rfl⟩) fun q hq hsel hc => ?_
        have heq : q = r := hinv.ids.eq_of_mem hq hmem (PaymentStore.isRow_iff.mp hsel).2
        subst heq
        omega
      | void => exact hmove (fun _ => ⟨rfl, rfl, rfl, rfl, rfl, rfl, rfl⟩) fun _ _ _ hc => hc
      | refund =>
        exact hmove (fun _ => ⟨rfl, rfl, rfl, rfl, rfl, rfl, rfl⟩) fun _ _ _ hc => hc

/-! ## Facts stay -/

/-- Facts survive where the rows they speak of move forward. -/
theorem facts_subset {db db' : Db}
    (horders : Evolves SameOrder db.checkout.orders db'.checkout.orders)
    (hpayments : Evolves SamePayment db.payment.payments db'.payment.payments)
    (htasks : Evolves SameTask db.checkout.tasks db'.checkout.tasks)
    (huuid : db.nextUuid ≤ db'.nextUuid) : facts db ⊆ facts db' := by
  intro f hf
  cases f with
  | stored order =>
    obtain ⟨o, ho, heq⟩ := hf
    obtain ⟨o', ho', st, rfl, -⟩ := horders o ho
    exact ⟨_, ho', heq⟩
  | ofRequest t id r =>
    obtain ⟨o, ho, heq⟩ := hf
    obtain ⟨o', ho', st, rfl, -⟩ := horders o ho
    exact ⟨_, ho', heq⟩
  | captured p =>
    obtain ⟨row, hrow, hid, hc⟩ := hf
    obtain ⟨row', hrow', hsame⟩ := hpayments row hrow
    exact ⟨row', hrow', hsame.identity.id.trans hid, hsame.captured hc⟩
  | settled p =>
    obtain ⟨row, hrow, hid, hs⟩ := hf
    obtain ⟨row', hrow', hsame⟩ := hpayments row hrow
    cases hsame.settled hs
    exact ⟨row, hrow', hid, hs⟩
  | paid t id =>
    obtain ⟨o, ho, ht, hid, hpaid⟩ := hf
    obtain ⟨o', ho', st, rfl, hst⟩ := horders o ho
    exact ⟨_, ho', ht, hid, (hst (by rw [hpaid]; decide)).trans hpaid⟩
  | issued n => exact lt_of_lt_of_le hf huuid
  | claimed c =>
    obtain ⟨t, ht, h1, h2, h3, h4⟩ := hf
    obtain ⟨t', ht', hsame⟩ := htasks t ht
    exact ⟨t', ht', hsame.id.trans h1, hsame.tenantId.trans h2, hsame.orderId.trans h3,
      hsame.kind.trans h4⟩

theorem facts_change {tx : Tx} {db db' : Db} (h : Change tx db db') : facts db ⊆ facts db' := by
  refine facts_subset h.orders.evolves ?_ h.tasks_evolve h.fresher.uuid
  rw [h.frame.1]
  exact Evolves.refl SamePayment.refl _

/-- Of the checkout tables, payment writes only the reconciliations. -/
theorem PaymentEffect.frame {Q : PaymentStore.Scope} {db db' : Db}
    (h : PaymentStore.Effect Q db db') :
    db'.checkout = { db.checkout with reconciliations := db'.checkout.reconciliations } ∧
      db'.inventory = db.inventory ∧ db'.now = db.now ∧ db'.nextUuid = db.nextUuid := by
  cases h with
  | act hq hvalid hnew heff => cases heff <;> exact ⟨rfl, rfl, rfl, rfl⟩
  | refl | refuse | quarantine | resolve => exact ⟨rfl, rfl, rfl, rfl⟩

theorem facts_effect {Q : PaymentStore.Scope} {db db' : Db}
    (hinv : PaymentStore.StoreInv db) (h : PaymentStore.Effect Q db db') :
    facts db ⊆ facts db' := by
  obtain ⟨hck, -, -, hu⟩ := PaymentEffect.frame h
  refine facts_subset ?_ (PaymentEffect.payments hinv h) ?_ hu.ge
  · rw [hck]
    exact Evolves.refl SameOrder.refl _
  · rw [hck]
    exact Evolves.refl SameTask.refl _

/-- Facts speak of the checkout and payment tables. -/
theorem facts_congr {db db' : Db} (hck : db'.checkout = db.checkout)
    (hp : db'.payment.payments = db.payment.payments) (hu : db'.nextUuid = db.nextUuid) :
    facts db ⊆ facts db' := by
  refine facts_subset ?_ ?_ ?_ hu.ge
  · rw [hck]
    exact Evolves.refl SameOrder.refl _
  · rw [hp]
    exact Evolves.refl SamePayment.refl _
  · rw [hck]
    exact Evolves.refl SameTask.refl _

/-- What holds goes on holding, whatever commits. -/
theorem facts_committed {db db' : Db} {a : Checkout.Action}
    (hinv : PaymentStore.StoreInv db) (h : Committed db a db') : facts db ⊆ facts db' := by
  cases h with
  | checkout hr =>
    exact (Tx.run_changes hr).invariant (I := fun x => facts db ⊆ facts x) Set.Subset.rfl
      fun a b ha hc => ha.trans (facts_change hc)
  | inventory hK heff =>
    obtain ⟨hck, hp, -, hu⟩ := heff.frame
    exact facts_congr hck (by rw [hp]) hu
  | payment heff =>
    exact heff.relates (R := fun a b => facts a ⊆ facts b) hinv
      (fun _ _ ha he => ha.effect he) (fun _ => Set.Subset.rfl)
      (fun _ _ _ h₁ h₂ => h₁.trans h₂) fun _ _ ha he => facts_effect ha he
  | decided hnow hi =>
    obtain ⟨rfl, -, -⟩ := PaymentStore.insertDecision_ok hi
    exact facts_congr rfl rfl rfl
  | elapse => exact facts_congr rfl rfl rfl

end CommercePlayground.System
