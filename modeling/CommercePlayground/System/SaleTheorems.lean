/-
CommercePlayground.System.SaleTheorems — paid orders and the stock, over every run of the
system.

* `paid_orders_consumed`: the lines of a paid order are consumed, each with a reservation
  of its own over its SKU and quantity.
* `reservations_backed`: every reservation is one of a line of a stored order, and it is
  consumed only when that order's payment is captured in full.
* `never_oversold`: what the paid orders sell of a SKU and what is still on hand is no
  more than there was at the start.
-/
import CommercePlayground.System.MoneyTheorems
import CommercePlayground.System.StockTheorems
import CommercePlayground.Inventory.LedgerTheorems

namespace CommercePlayground.System

open Lib Checkout

/-! ## Results of calls -/

/-- What the answer to a call tells of the stock is true. -/
def StockTold (db : Db) (c : Call) (r : c.Result) : Prop :=
  stockAllows (.call c) r ∧ stockLearns (.call c) r ⊆ stockFacts db

theorem StockTold.mono {db db' : Db} {c : Call} {r : c.Result} (h : StockTold db c r)
    (hf : stockFacts db ⊆ stockFacts db') : StockTold db' c r := ⟨h.1, h.2.trans hf⟩

/-- Only a successful consume tells something. -/
theorem stockTold_consume {db : Db} {q : Inventory.ConsumeBody}
    {r : Option (Response InventoryConsumeResponse)}
    (h : consumeSucceeded r → (q.reservations.map (·.reservationId)).Nodup ∧
      ∀ c ∈ q.reservations,
        StockFact.consumed q.tenantId c.reservationId c.sku c.quantity ∈ stockFacts db) :
    StockTold db (.consume q) r := by
  refine ⟨fun hs => (h hs).1, ?_⟩
  rintro f ⟨hs, c, hc, rfl⟩
  exact (h hs).2 c hc

theorem stockTold_lost (db : Db) (c : Call) (code : GrpcCode) :
    StockTold db c (c.lost code) := by
  cases c with
  | consume q =>
    refine stockTold_consume ?_
    rintro ⟨response, ⟨⟩, -⟩
  | payment | getPayment | reserve | release => exact ⟨trivial, Set.empty_subset _⟩

theorem stockTold_refused (db : Db) (c : Call) : StockTold db c c.refused := by
  cases c with
  | consume q =>
    refine stockTold_consume ?_
    rintro ⟨response, hr, hs⟩
    cases hr
    cases hs
  | payment | getPayment | reserve | release => exact ⟨trivial, Set.empty_subset _⟩

theorem StockTold.truncated {db : Db} {c : Call} {r : c.Reply}
    (h : StockTold db c (c.received r)) : StockTold db c (c.truncated r) := by
  cases c with
  | consume q =>
    refine stockTold_consume ?_
    rintro ⟨response, hr, hs⟩
    cases hr
    have hdone : consumeSucceeded (some r) := ⟨r, rfl, hs⟩
    exact ⟨h.1 hdone, fun c hc => h.2 ⟨hdone, c, hc, rfl⟩⟩
  | payment | getPayment | reserve | release => exact ⟨trivial, Set.empty_subset _⟩

/-- **What inventory tells is true.** -/
theorem serve_stockTold {db : Db} {c : Call} (h : DbInv db) :
    StockTold (c.serve db).2 c (c.received (c.serve db).1) := by
  cases c with
  | consume q =>
    refine stockTold_consume ?_
    rintro ⟨response, hr, hs⟩
    cases hr
    cases hrun : Inventory.consume q db with
    | error e =>
      simp only [Call.serve, hrun] at hs
      unfold consumeResponse at hs
      split at hs
      · rename_i heq
        cases heq
      · cases hs
      · rename_i heq
        cases heq
        cases e <;> cases hs
    | ok out =>
      obtain ⟨o, db'⟩ := out
      refine ⟨(Inventory.consume_spec h.reservations hrun).valid.distinct, fun c hc => ?_⟩
      obtain ⟨r, hr, ⟨hkey, hsku, hquantity⟩, hst⟩ :=
        Inventory.consume_row h.reservations hrun c hc
      simp only [Call.serve, hrun, Inventory.committed]
      exact ⟨r, hr, hkey, hsku, hquantity, hst⟩
  | payment | getPayment | reserve | release => exact ⟨trivial, Set.empty_subset _⟩

/-! ## The invariant -/

/-- The process keeps to its contract with the stock. -/
def StockSafe (db : Db) (t : Thread) : Prop :=
  Safe stockContract t.work (both (facts db) (stockFacts db)) fun _ _ => True

theorem StockSafe.mono {db db' : Db} {t : Thread} (h : StockSafe db t)
    (hf : facts db ⊆ facts db') (hg : stockFacts db ⊆ stockFacts db') : StockSafe db' t :=
  Safe.mono h (both_mono hf hg) fun _ _ _ _ _ => trivial

/-- A reply tells the truth of the stock. -/
def StockReply (s : State) (n : Nat) (reply : Reply) : Prop :=
  ∃ c r, s.net[n]? = some c ∧ reply = Reply.of c r ∧ StockTold s.db c (c.received r)

/-- What holds of the stock in every reachable state. -/
structure SaleInv (s : State) : Prop where
  final : FinalInv s
  stock : StockInv s.db
  net : ∀ c ∈ s.net, stockNeeds (.call c) (facts s.db) (stockFacts s.db)
  replies : ∀ r ∈ s.replies, StockReply s r.1 r.2
  threads : ∀ t ∈ s.threads, StockSafe s.db t

theorem SaleInv.db {s : State} (h : SaleInv s) : DbInv s.db := h.final.sys.db

/-! ## Steps of a process -/

theorem txStep_db {s u : State} {t : Tx} {choice : Choice} {r : ApiResult t.Result}
    (hs : txStep s t choice = some (.finished u r)) :
    u = s ∨ ∃ a db, t.run s.db = .ok (a, db) ∧ u = { s with db := db } := by
  cases choice with
  | commit =>
    simp only [System.txStep] at hs
    split at hs
    · rename_i a db hr
      cases hs
      exact .inr ⟨a, db, hr, rfl⟩
    · cases hs
      exact .inl rfl
  | fault f =>
    cases hs
    exact .inl rfl
  | commitLost =>
    simp only [System.txStep] at hs
    split at hs
    · rename_i a db hr
      cases hs
      exact .inr ⟨a, db, hr, rfl⟩
    · cases hs
  | send | unreachable | receive | truncate | lose | outage | catalog | pricing | go => cases hs

/-- A transaction finalizes an order that is sold, or leaves the stock alone. -/
theorem run_stockMoved {t : Tx} {db db' : Db} {a : t.Result} (hneeds : t.needs (facts db))
    (hstock : stockNeeds (.tx t) (facts db) (stockFacts db)) (hr : t.run db = .ok (a, db')) :
    StockMoved db db' := by
  have hi : db'.inventory = db.inventory := (Tx.run_changes hr).frame.2.1
  by_cases htx : ∃ order paymentId fence, t = .finalizeOrder order paymentId fence
  · obtain ⟨order, paymentId, fence, rfl⟩ := htx
    obtain ⟨requestId, hknown, -⟩ := hneeds
    exact .finalize hi hknown.1 hstock (finalizeOrder_ok hr)
  · refine .idle hi ((Tx.run_changes hr).invariant (I := Unfinalized db) (.refl db) ?_)
    intro x y hx hstep
    exact hx.trans (Change.unfinalized hstep fun o p f heq => htx ⟨o, p, f, heq⟩)

theorem SaleInv.replyTo {s : State} (h : SaleInv s) {n reply : Nat} {c : Call} {r : c.Reply}
    (hc : s.net[n]? = some c) (hr : s.replyTo n reply c = some r) :
    StockTold s.db c (c.received r) := by
  unfold State.replyTo at hr
  split at hr
  · rename_i m rep hrep
    split at hr
    · rename_i hn
      subst hn
      obtain ⟨c', r', hc', heq, htold⟩ := h.replies (m, rep) (List.mem_of_getElem? hrep)
      obtain rfl : c' = c := Option.some.inj (hc'.symm.trans hc)
      dsimp only at heq
      rw [heq, Reply.as_of] at hr
      cases hr
      exact htold
    · cases hr
  · cases hr

theorem SaleInv.callStep {s u : State} (h : SaleInv s) {c : Call} {waiting : Option Nat}
    (hwaits : ∀ n, waiting = some n → s.net[n]? = some c) {choice : Choice} {r : c.Result}
    (hs : callStep s c waiting choice = some (.finished u r)) : StockTold s.db c r := by
  cases waiting with
  | none =>
    cases choice with
    | unreachable =>
      cases hs
      exact stockTold_lost _ _ _
    | commit | fault | commitLost | send | receive | truncate | lose | outage | catalog | pricing
    | go => cases hs
  | some n =>
    have hc := hwaits n rfl
    cases choice with
    | receive reply =>
      obtain ⟨a, ha, heq⟩ := Option.map_eq_some_iff.mp hs
      cases heq
      exact h.replyTo hc ha
    | truncate reply =>
      obtain ⟨a, ha, heq⟩ := Option.map_eq_some_iff.mp hs
      cases heq
      exact (h.replyTo hc ha).truncated
    | lose code =>
      simp only [System.callStep] at hs
      split at hs
      · cases hs
      · cases hs
        exact stockTold_lost _ _ _
    | outage =>
      cases hs
      exact stockTold_refused _ _
    | commit | fault | commitLost | send | unreachable | catalog | pricing | go => cases hs

/-- The other effects leave the system as it is. -/
theorem effectStep_idle {s : State} {e : Effect} {waiting : Option Nat} {choice : Choice}
    {p : Progress e} (htx : ∀ t, e ≠ .tx t) (hcall : ∀ c, e ≠ .call c)
    (hs : System.effectStep s waiting choice e = some p) : ∃ r, p = .finished s r := by
  cases e with
  | tx t => exact absurd rfl (htx t)
  | call c => exact absurd rfl (hcall c)
  | catalog | pricing | startHeartbeat | stopHeartbeat =>
    simp only [System.effectStep] at hs
    split at hs
    · cases hs
      exact ⟨_, rfl⟩
    · cases hs

/-- What one effect of a process does to the stock. -/
theorem SaleInv.effectStep {s : State} (h : SaleInv s) {e : Effect} {waiting : Option Nat}
    (hneeds : stockContract.needs e (both (facts s.db) (stockFacts s.db)))
    (hwaits : ∀ n c, waiting = some n → e = .call c → s.net[n]? = some c) {choice : Choice}
    {p : Progress e} (hs : effectStep s waiting choice e = some p) :
    (∃ db r, p = .finished { s with db := db } r ∧ Moved s.db db ∧ StockMoved s.db db ∧
      Answered { s with db := db } e r ∧ stockAllows e r ∧ stockLearns e r ⊆ stockFacts db) ∨
      ∃ c, e = .call c ∧ p = .sent { s with net := s.net ++ [c] } s.net.length := by
  rcases h.final.sys.effectStep hneeds.1 hwaits hs with ⟨u, r, rfl, ⟨db, hm, rfl⟩, hans⟩ | hsent
  · refine .inl ⟨db, r, rfl, hm, ?_⟩
    have hidle : ∀ {db}, { s with db := db } = s → StockMoved s.db db := by
      intro db heq
      obtain rfl : db = s.db := congrArg State.db heq
      exact .refl _
    cases e with
    | tx t =>
      refine ⟨?_, hans, trivial, Set.empty_subset _⟩
      rcases txStep_db hs with heq | ⟨a, db', hr, heq⟩
      · exact hidle heq
      · obtain rfl : db = db' := congrArg State.db heq
        exact run_stockMoved hneeds.1 hneeds.2 hr
    | call c =>
      have heq := (h.final.sys.callStep (fun n hn => hwaits n c hn rfl) hs).1
      have htold := h.callStep (fun n hn => hwaits n c hn rfl) hs
      obtain rfl : db = s.db := congrArg State.db heq
      exact ⟨.refl _, hans, htold⟩
    | catalog | pricing | startHeartbeat | stopHeartbeat =>
      obtain ⟨r', heq⟩ := effectStep_idle (fun _ h => by cases h) (fun _ h => by cases h) hs
      rw [Progress.finished.injEq] at heq
      obtain rfl : db = s.db := congrArg State.db heq.1
      exact ⟨.refl _, hans, trivial, Set.empty_subset _⟩
  · exact .inr hsent

/-- A process that went on keeps to its contract with the stock. -/
theorem SaleInv.threadStep {s u : State} {t t' : Thread} {choice : Choice} (h : SaleInv s)
    (ht : ThreadInv s t) (hsafe : StockSafe s.db t) (hs : t.step s choice = some (u, t')) :
    StockMoved s.db u.db ∧ StockSafe u.db t' ∧
      ((∃ db, u = { s with db := db }) ∨ ∃ c, u = { s with net := s.net ++ [c] } ∧
        stockNeeds (.call c) (facts s.db) (stockFacts s.db)) := by
  unfold Thread.step at hs
  split at hs
  · cases hs
  · rename_i e k hwork
    unfold StockSafe at hsafe
    rw [hwork] at hsafe
    have hwaits : ∀ n c, t.waiting = some n → e = .call c → s.net[n]? = some c := by
      intro n c hn hc
      obtain ⟨c', k', hw, hnet⟩ := ht.waits n hn
      subst hc
      rw [hwork] at hw
      cases hw
      exact hnet
    cases hstep : System.effectStep s t.waiting choice e with
    | none =>
      rw [hstep] at hs
      cases hs
    | some p =>
      rw [hstep] at hs
      rcases h.effectStep hsafe.1 hwaits hstep with
        ⟨db, r, rfl, hm, hsm, hans, hallows, hlearns⟩ | ⟨c, rfl, rfl⟩
      · cases hs
        have hfacts := hm.facts h.db
        have hstock := (h.stock.moved h.db hfacts hsm).2
        refine ⟨hsm, ?_, .inl ⟨db, rfl⟩⟩
        refine (hsafe.2 r ⟨hans.1, hallows⟩).mono ?_ fun _ _ _ _ _ => trivial
        exact Set.union_subset (both_mono hfacts hstock) (both_mono hans.2 hlearns)
      · cases hs
        refine ⟨.refl _, ?_, .inr ⟨c, rfl, hsafe.1.2⟩⟩
        unfold StockSafe
        rw [hwork]
        exact hsafe

/-! ## Steps of the system -/

/-- Every process starts within its contract with the stock. -/
theorem Process.stock_safe (p : Process) (K : Set (Fact ⊕ StockFact)) :
    Safe stockContract p.work K fun _ _ => True := by
  have hwork : ∀ {α : Type} {flow : Flow α}, Sound stockContract flow K →
      Safe stockContract (workOf flow) K fun _ _ => True :=
    fun h => Safe.bind h fun _ _ _ _ => trivial
  cases p with
  | checkout input => exact hwork checkoutInner_stock
  | reconciliation pick => exact hwork processOnePaymentReconciliation_stock
  | compensation expired pick => exact hwork processOneCompensation_stock

theorem beat_stockMoved (db : Db) (fence : CheckoutFence) : StockMoved db (beat db fence) := by
  unfold beat
  split
  · rename_i u db' hr
    exact run_stockMoved (t := .refreshCheckoutFence fence) trivial trivial hr
  · exact .refl _

/-- Calls, replies and processes do not mind that the database moves. -/
theorem SaleInv.grown {s : State} (h : SaleInv s) {db : Db} (hm : Moved s.db db)
    (hsm : StockMoved s.db db) : StockInv db ∧
      (∀ c ∈ s.net, stockNeeds (.call c) (facts db) (stockFacts db)) ∧
      (∀ r ∈ s.replies, StockReply { s with db := db } r.1 r.2) ∧
      ∀ t ∈ s.threads, StockSafe db t := by
  have hfacts := hm.facts h.db
  obtain ⟨hstock, hsub⟩ := h.stock.moved h.db hfacts hsm
  refine ⟨hstock, fun c hc => Checkout.stock.needs_mono hfacts hsub (h.net c hc),
    fun r hr => ?_, fun t ht => (h.threads t ht).mono hfacts hsub⟩
  obtain ⟨c, r', hc, heq, htold⟩ := h.replies r hr
  exact ⟨c, r', hc, heq, htold.mono hsub⟩

/-- A step that only moves the database. -/
theorem SaleInv.moved {s : State} (h : SaleInv s) {db : Db}
    (hfinal : FinalInv { s with db := db }) (hm : Moved s.db db) (hsm : StockMoved s.db db) :
    SaleInv { s with db := db } ∧ StockMoved s.db db := by
  obtain ⟨hstock, hnet, hreplies, hthreads⟩ := h.grown hm hsm
  exact ⟨⟨hfinal, hstock, hnet, hreplies, hthreads⟩, hsm⟩

/-- The payment service leaves the stock alone. -/
theorem effects_stockMoved {Q : PaymentStore.Scope} {db db' : Db}
    (h : PaymentStore.Effects Q db db') : StockMoved db db' := by
  obtain ⟨hi, hu⟩ := h.invariant
    (I := fun x => x.inventory = db.inventory ∧ Unfinalized db x) ⟨rfl, .refl db⟩ (by
      rintro a b ⟨hi, hu⟩ he
      obtain ⟨hck, hi', -⟩ := PaymentEffect.frame he
      exact ⟨hi'.trans hi,
        hu.trans (.of_eq (by rw [hck]) (by rw [hck]) (by rw [hck]) (by rw [hck]))⟩)
  exact .idle hi hu

/-- A service moves the stock as the call asks. -/
theorem serve_stockMoved {db : Db} {c : Call}
    (hneeds : stockNeeds (.call c) (facts db) (stockFacts db)) :
    StockMoved db (c.serve db).2 := by
  cases c with
  | payment q => exact effects_stockMoved (PaymentStore.serve_effect q db).toEffects
  | getPayment t id =>
    exact effects_stockMoved (PaymentStore.serveGetPayment_effect t id db).toEffects
  | reserve q =>
    simp only [Call.serve]
    cases hr : Inventory.reserve q db with
    | error e => exact .refl _
    | ok r => exact .reserve hneeds hr
  | release q =>
    simp only [Call.serve]
    cases hr : Inventory.release q db with
    | error e => exact .refl _
    | ok r => exact .release hr
  | consume q =>
    simp only [Call.serve]
    cases hr : Inventory.consume q db with
    | error e => exact .refl _
    | ok r => exact .consume hneeds hr

theorem SaleInv.step {s u : State} {a : Action} (h : SaleInv s)
    (hs : System.step s a = some u) : SaleInv u ∧ StockMoved s.db u.db := by
  have hfinal := (h.final.step hs).1
  obtain ⟨-, hmoved⟩ := h.final.sys.step hs
  cases a with
  | spawn p =>
    cases hs
    exact ⟨⟨hfinal, h.stock, h.net, h.replies, forall_append_singleton h.threads
      (p.stock_safe _)⟩, .refl _⟩
  | run i choice =>
    simp only [System.step] at hs
    split at hs
    · cases hs
    · rename_i t ht
      split at hs
      · cases hs
      · rename_i v t' hstep
        cases hs
        have hmem := List.mem_of_getElem? ht
        obtain ⟨hsm, hsafe, hnext⟩ :=
          h.threadStep (h.final.sys.threads t hmem) (h.threads t hmem) hstep
        refine ⟨?_, hsm⟩
        have hthreads : ∀ {db}, (∀ x ∈ s.threads, StockSafe db x) → StockSafe db t' →
            ∀ x ∈ s.threads.set i t', StockSafe db x := by
          intro db hold hnew x hx
          rcases List.mem_or_eq_of_mem_set hx with hx | rfl
          · exact hold x hx
          · exact hnew
        rcases hnext with ⟨db, rfl⟩ | ⟨c, rfl, hneeds⟩
        · obtain ⟨hstock, hnet, hreplies, hold⟩ := h.grown hmoved hsm
          exact ⟨hfinal, hstock, hnet, hreplies, hthreads hold hsafe⟩
        · refine ⟨hfinal, h.stock, forall_append_singleton h.net hneeds, fun r hr => ?_,
            hthreads h.threads hsafe⟩
          obtain ⟨c', r', hc, heq, htold⟩ := h.replies r hr
          refine ⟨c', r', ?_, heq, htold⟩
          dsimp only
          rw [List.getElem?_append_left (List.getElem?_eq_some_iff.mp hc).1]
          exact hc
  | crash i =>
    cases hs
    refine ⟨⟨hfinal, h.stock, h.net, h.replies, fun x hx => ?_⟩, .refl _⟩
    rcases List.mem_or_eq_of_mem_set hx with hx | rfl
    · exact h.threads x hx
    · exact trivial
  | heartbeat i fence =>
    simp only [System.step] at hs
    split at hs
    · cases hs
    · split at hs
      · cases hs
        exact h.moved hfinal hmoved (beat_stockMoved _ _)
      · cases hs
  | deliver n =>
    simp only [System.step] at hs
    split at hs
    · cases hs
    · rename_i c hc
      cases hs
      have hsm := serve_stockMoved (h.net c (List.mem_of_getElem? hc))
      obtain ⟨hstock, hnet, hreplies, hthreads⟩ := h.grown hmoved hsm
      exact ⟨⟨hfinal, hstock, hnet, forall_append_singleton hreplies
        ⟨c, (c.serve s.db).1, hc, rfl, serve_stockTold h.db⟩, hthreads⟩, hsm⟩
  | elapse time =>
    cases hs
    exact h.moved hfinal hmoved (.idle rfl (.of_eq rfl rfl rfl rfl))
  | reconcilePayments n keys =>
    cases hs
    have hc : Committed s.db (.payment (.reconcile n keys)) (PaymentStore.committed s.db
        (PaymentStore.reconcilePendingPayments n keys s.db)) :=
      committed_of_commit h.db.keyed rfl
    cases hc with
    | payment he => exact h.moved hfinal hmoved (effects_stockMoved he)
  | decide d =>
    simp only [System.step] at hs
    split at hs
    · cases hs
      have hsm : StockMoved s.db (decided s.db d) := by
        unfold decided
        split
        · rename_i db' hi
          obtain ⟨rfl, -, -⟩ := PaymentStore.insertDecision_ok hi
          exact .idle rfl (.of_eq rfl rfl rfl rfl)
        · exact .refl _
      exact h.moved hfinal hmoved hsm
    · cases hs
  | reap visible =>
    cases hs
    have hsm : StockMoved s.db (Inventory.committed s.db
        (Inventory.reapExpiredReservations visible s.db)) := by
      cases hr : Inventory.reapExpiredReservations visible s.db with
      | error e => exact .refl _
      | ok r => exact .reap hr
    exact h.moved hfinal hmoved hsm

/-! ## Runs -/

theorem SaleInv.initial {s : State} (h : Initial s) : SaleInv s := by
  refine ⟨.initial h, ⟨?_, ?_, ?_⟩, ?_, ?_, ?_⟩
  · simp [h.reservations]
  · simp [h.reservations]
  · simp [h.orders]
  · simp [h.net]
  · simp [h.replies]
  · simp [h.threads]

theorem SaleInv.reach {s₀ s : State} {ok : State → Action → Prop} (h0 : Initial s₀)
    (h : Reach System.step ok s₀ s) : SaleInv s :=
  h.invariant (.initial h0) fun _ _ _ ht _ hs => (ht.step hs).1

/-- A consumed reservation is never written again. -/
theorem SaleInv.consumed_kept {s u : State} {ok : State → Action → Prop} (h : SaleInv s)
    (hr : Reach System.step ok s u) {r : Reservation} (hmem : r ∈ s.db.inventory.reservations)
    (hst : r.status = .consumed) : r ∈ u.db.inventory.reservations := by
  refine (hr.invariant (I := fun x => SaleInv x ∧ r ∈ x.db.inventory.reservations)
    ⟨h, hmem⟩ ?_).2
  rintro x a y ⟨hx, hrow⟩ - hs
  obtain ⟨hy, hm⟩ := hx.step hs
  obtain ⟨r', hr', hsame⟩ := hm.rows r hrow
  exact ⟨hy, hsame.consumed hst ▸ hr'⟩

/-- The reservation is one of the order's, for the order's own request. -/
structure ReservedFor (o : Order) (line : OrderLine) (r : Reservation) : Prop where
  tenantId : r.tenantId = o.tenantId
  id : r.reservationId = .line o.id line.variantId
  sku : r.sku = line.sku
  quantity : r.quantity = line.quantity
  owner : r.ownerRequestId = some o.checkoutRequestId

/-- The order of a reservation. -/
theorem SaleInv.order_of_reservation {s : State} (h : SaleInv s) {r : Reservation}
    (hr : r ∈ s.db.inventory.reservations) :
    ∃ o ∈ s.db.checkout.orders, ∃ line ∈ o.lines, ReservedFor o line r ∧
      (r.status = .consumed →
        .captured (paymentOf o.tenantId o.checkoutRequestId) ∈ facts s.db) := by
  obtain ⟨order, requestId, line, hline, hknown, hof, hcaptured⟩ := h.stock.backed r hr
  obtain ⟨o, ho, ht, hid, hrequest, -, -⟩ := h.db.known_order hknown
  obtain ⟨x, hx, heq⟩ := hknown.1
  have hxid : x.id = order.id := by
    rw [← heq]
    rfl
  obtain rfl : o = x := h.db.orders.eq_of_mem ho hx (hid.trans hxid.symm)
  have hlines : order.lines = o.lines := by
    rw [← heq]
    rfl
  refine ⟨o, ho, line, hlines ▸ hline, ?_, ?_⟩
  · exact ⟨hof.tenantId.trans ht.symm, by rw [hid]; exact hof.id, hof.sku, hof.quantity,
      by rw [hrequest]; exact hof.owner⟩
  · rw [ht, hrequest]
    exact hcaptured

/-! ## The stock of a SKU -/

/-- PRIMARY KEY, UNIQUE and CHECK of `inventory`. -/
structure Stocked (db : Db) : Prop where
  ids : KeyUnique (·.id) db.inventory.stock
  keys : KeyUnique Inventory.stockKey db.inventory.stock
  checks : ∀ s ∈ db.inventory.stock, Inventory.stockChecks s = true

/-- The tables of a shop that starts are a ledger. -/
theorem Stocked.ledger {db : Db} (h : Stocked db) (hnone : db.inventory.reservations = []) :
    ∃ base total, Inventory.Ledger base total db := by
  have hrow : ∀ s ∈ db.inventory.stock,
      db.inventory.stock.find? (fun x => decide (x.id = s.id)) = some s :=
    fun s hs => h.ids.find?_eq_some hs
  have hchecks : ∀ s ∈ db.inventory.stock,
      0 ≤ s.reservedQuantity ∧ s.reservedQuantity ≤ s.onHandQuantity := by
    intro s hs
    have hcheck := h.checks s hs
    simp only [Inventory.stockChecks, Bool.and_eq_true, decide_eq_true_eq] at hcheck
    exact ⟨hcheck.1.2, hcheck.2⟩
  refine ⟨fun n => ((db.inventory.stock.find? fun x => decide (x.id = n)).map
    (·.reservedQuantity)).getD 0, fun n => ((db.inventory.stock.find? fun x =>
    decide (x.id = n)).map (·.onHandQuantity)).getD 0, ?_⟩
  exact {
    stockIds := h.ids
    stockKeys := h.keys
    reservationKeys := by
      rw [hnone]
      exact KeyUnique.nil _
    checked := by simp [hnone]
    placed := by simp [hnone]
    base_nonneg := fun s hs => by
      rw [hrow s hs]
      exact (hchecks s hs).1
    reserved := fun s hs => by
      rw [hrow s hs, hnone]
      simp [Inventory.quantityIn]
    onHand := fun s hs => by
      rw [hrow s hs, hnone]
      simp [Inventory.quantityIn]
    bounded := hchecks }

/-- The stock row is one of the SKU. -/
def ofSku (db : Db) (tenantId : TenantId) (sku : Sku) (s : Stock) : Bool :=
  decide (s.tenantId = tenantId) && db.inventory.variants.any fun v =>
    decide (v.tenantId = tenantId ∧ v.id = s.variantId ∧ v.sku = sku)

/-- What there is of a SKU. -/
def unitsOnHand (db : Db) (tenantId : TenantId) (sku : Sku) : Int :=
  sumWhere (ofSku db tenantId sku) (·.onHandQuantity) db.inventory.stock

/-- The lines of the paid orders that sell a SKU. -/
def linesSold (db : Db) (tenantId : TenantId) (sku : Sku) : List (Order × OrderLine) :=
  (db.checkout.orders.filter fun o => decide (o.status = .paid ∧ o.tenantId = tenantId)).flatMap
    fun o => (o.lines.filter fun line => decide (line.sku = sku)).map fun line => (o, line)

/-- What the paid orders sell of a SKU. -/
def unitsSold (db : Db) (tenantId : TenantId) (sku : Sku) : Int :=
  ((linesSold db tenantId sku).map fun x => (x.2.quantity : Int)).sum

theorem mem_linesSold {db : Db} {t : TenantId} {k : Sku} {x : Order × OrderLine}
    (h : x ∈ linesSold db t k) : x.1 ∈ db.checkout.orders ∧ x.1.status = .paid ∧
      x.1.tenantId = t ∧ x.2 ∈ x.1.lines ∧ x.2.sku = k := by
  obtain ⟨o, ho, hx⟩ := List.mem_flatMap.mp h
  obtain ⟨line, hline, rfl⟩ := List.mem_map.mp hx
  simp only [List.mem_filter, decide_eq_true_eq] at ho hline
  exact ⟨ho.1, ho.2.1, ho.2.2, hline⟩

/-- The key of the reservation of a line. -/
def lineKey (x : Order × OrderLine) : TenantId × ReservationId :=
  (x.1.tenantId, .line x.1.id x.2.variantId)

/-- The lines sold have reservations of their own. -/
theorem SaleInv.lineKeys_nodup {s : State} (h : SaleInv s) (t : TenantId) (k : Sku) :
    ((linesSold s.db t k).map lineKey).Nodup := by
  unfold linesSold
  rw [List.map_flatMap, List.nodup_flatMap]
  constructor
  · intro o ho
    obtain ⟨ho, hpaid⟩ := List.mem_filter.mp ho
    have hdistinct := (h.stock.sold o ho (of_decide_eq_true hpaid).1 0).distinct
    have hvariants := (List.filter_sublist
      (p := fun line : OrderLine => decide (line.sku = k)).map (·.variantId)).nodup hdistinct
    have hkeys := hvariants.map (f := fun v => (o.tenantId, ReservationId.line o.id v))
      fun a b heq => by simpa using heq
    rw [List.map_map] at hkeys ⊢
    exact hkeys
  · have hids : (s.db.checkout.orders.filter fun o =>
        decide (o.status = .paid ∧ o.tenantId = t)).Pairwise fun a b => a.id ≠ b.id :=
      List.pairwise_map.mp (List.Nodup.sublist (List.filter_sublist.map _) h.db.orders)
    refine hids.imp fun {a b} hne => ?_
    intro key ha hb
    simp only [List.mem_map, lineKey] at ha hb
    obtain ⟨-, ⟨la, -, rfl⟩, hka⟩ := ha
    obtain ⟨-, ⟨lb, -, rfl⟩, hkb⟩ := hb
    have heq := hka.trans hkb.symm
    simp only [Prod.mk.injEq, ReservationId.line.injEq] at heq
    exact hne heq.2.1

/-- A consumed reservation of the SKU. -/
def soldOf (tenantId : TenantId) (sku : Sku) (r : Reservation) : Bool :=
  decide (r.tenantId = tenantId ∧ r.sku = sku ∧ r.status = .consumed)

/-- What is sold is consumed. -/
theorem SaleInv.sold_le {s : State} (h : SaleInv s) {base total : Nat → Int}
    (hl : Inventory.Ledger base total s.db) (t : TenantId) (k : Sku) :
    unitsSold s.db t k ≤ sumWhere (soldOf t k) (·.quantity) s.db.inventory.reservations := by
  refine sum_le_sumWhere_of_keys Inventory.reservationKey (h.lineKeys_nodup t k)
    (fun x hx => ?_) fun r hr _ => (Inventory.quantity_pos (hl.checked r hr)).le
  obtain ⟨ho, hpaid, ht, hline, hsku⟩ := mem_linesSold hx
  obtain ⟨r, hr, hkey, hrsku, hquantity, hst⟩ := (h.stock.sold x.1 ho hpaid 0).consumed x.2 hline
  refine ⟨r, hr, hkey, ?_, hquantity⟩
  have hrt : r.tenantId = x.1.tenantId := congrArg Prod.fst hkey
  simp [soldOf, hrt, ht, hrsku, hsku, hst]

/-- What is consumed was taken from stock rows of the SKU. -/
theorem SaleInv.consumed_le {s : State} (h : SaleInv s) {base total : Nat → Int}
    (hl : Inventory.Ledger base total s.db) (t : TenantId) (k : Sku) :
    sumWhere (soldOf t k) (·.quantity) s.db.inventory.reservations ≤
      ((s.db.inventory.stock.filter (ofSku s.db t k)).map fun x =>
        Inventory.quantityIn .consumed x s.db.inventory.reservations).sum := by
  refine sumWhere_le_sum_of_cover (fun r hr hsold => ?_)
    fun r hr => (Inventory.quantity_pos (hl.checked r hr)).le
  simp only [soldOf, decide_eq_true_eq] at hsold
  obtain ⟨⟨x, hx, hstock⟩, v, hv, hvt, hvid, hvsku⟩ := h.stock.shelved r hr
  have hof := hstock
  simp only [Inventory.isStockOf, decide_eq_true_eq] at hof
  refine ⟨x, List.mem_filter.mpr ⟨hx, ?_⟩, by simp [Inventory.inStatus, hstock, hsold.2.2]⟩
  simp only [ofSku, Bool.and_eq_true, List.any_eq_true, decide_eq_true_eq]
  exact ⟨hof.1.trans hsold.1, v, hv, hvt.trans hsold.1, hvid.trans hof.2.1.symm,
    hvsku.trans hsold.2.1⟩

/-- Whether a shelf is one of the SKU. -/
def shelfOf (variants : List Variant) (tenantId : TenantId) (sku : Sku)
    (x : Nat × TenantId × VariantId × LocationId) : Bool :=
  decide (x.2.1 = tenantId) && variants.any fun v =>
    decide (v.tenantId = tenantId ∧ v.id = x.2.2.1 ∧ v.sku = sku)

/-- What is on hand of a SKU and what was consumed of it make up its total. -/
theorem unitsOnHand_add {db : Db} {base total : Nat → Int} (hl : Inventory.Ledger base total db)
    (t : TenantId) (k : Sku) :
    unitsOnHand db t k + ((db.inventory.stock.filter (ofSku db t k)).map fun x =>
        Inventory.quantityIn .consumed x db.inventory.reservations).sum =
      (((db.inventory.stock.map Inventory.shelf).filter
        (shelfOf db.inventory.variants t k)).map fun x => total x.1).sum := by
  rw [unitsOnHand, sumWhere, ← List.sum_map_add, List.filter_map, List.map_map]
  refine congrArg List.sum (List.map_congr_left fun x hx => ?_)
  exact hl.onHand x (List.mem_of_mem_filter hx)

theorem Ledger.congr {base total : Nat → Int} {db db' : Db}
    (h : Inventory.Ledger base total db) (hi : db'.inventory = db.inventory) :
    Inventory.Ledger base total db' := by
  obtain ⟨h1, h2, h3, h4, h5, h6, h7, h8, h9⟩ := h
  constructor <;> rw [hi] <;> assumption

/-- The ledger and the shelves of a run. -/
theorem SaleInv.ledger {s₀ s : State} {ok : State → Action → Prop} (h0 : SaleInv s₀)
    {base total : Nat → Int} (hl : Inventory.Ledger base total s₀.db)
    (h : Reach System.step ok s₀ s) : Inventory.Ledger base total s.db ∧
      s.db.inventory.variants = s₀.db.inventory.variants ∧
      s.db.inventory.stock.map Inventory.shelf = s₀.db.inventory.stock.map Inventory.shelf := by
  refine (h.invariant (I := fun x => SaleInv x ∧ Inventory.Ledger base total x.db ∧
    x.db.inventory.variants = s₀.db.inventory.variants ∧
    x.db.inventory.stock.map Inventory.shelf = s₀.db.inventory.stock.map Inventory.shelf)
    ⟨h0, hl, rfl, rfl⟩ ?_).2
  rintro x a y ⟨hx, hlx, hv, hshelves⟩ - hs
  obtain ⟨hy, hm⟩ := hx.step hs
  refine ⟨hy, ?_⟩
  rcases hm.effects hx.db.reservations with hi | ⟨K, he⟩
  · rw [hi]
    exact ⟨Ledger.congr hlx hi, hv, hshelves⟩
  · obtain ⟨hv', hshelves'⟩ := he.shelves
    exact ⟨hlx.effects he, hv'.trans hv, hshelves'.trans hshelves⟩

/-! ## Main results -/

/-- **A paid order is taken from stock, whole.** The lines of a paid order are of different
variants, each has a reservation of its own for the order's request, over its SKU and its
quantity, that reservation is consumed, and no later step writes it. -/
theorem paid_orders_consumed {s₀ s : State} (h0 : Initial s₀)
    (h : Reach System.step (fun _ _ => True) s₀ s) :
    ∀ o ∈ s.db.checkout.orders, o.status = .paid →
      (o.lines.map (·.variantId)).Nodup ∧
      ∀ line ∈ o.lines, ∃ r ∈ s.db.inventory.reservations, ReservedFor o line r ∧
        r.status = .consumed ∧
        ∀ u, Reach System.step (fun _ _ => True) s u → r ∈ u.db.inventory.reservations := by
  intro o ho hpaid
  have hinv := SaleInv.reach h0 h
  have hsold := hinv.stock.sold o ho hpaid 0
  refine ⟨hsold.distinct, fun line hline => ?_⟩
  obtain ⟨r, hr, hkey, hsku, hquantity, hst⟩ := hsold.consumed line hline
  refine ⟨r, hr, ?_, hst, fun u hu => hinv.consumed_kept hu hr hst⟩
  obtain ⟨x, hx, line', -, hfor, -⟩ := hinv.order_of_reservation hr
  have hid : r.reservationId = .line o.id line.variantId := congrArg Prod.snd hkey
  have hline := hid.symm.trans hfor.id
  simp only [ReservationId.line.injEq] at hline
  obtain rfl : o = x := hinv.db.orders.eq_of_mem ho hx hline.1
  exact ⟨congrArg Prod.fst hkey, hid, hsku, hquantity, hfor.owner⟩

theorem paid_orders_consumed_sample :
    soldShop.db.inventory.stock.map (·.onHandQuantity) = [8] ∧
      ∀ o ∈ soldShop.db.checkout.orders, o.status = .paid → ∀ line ∈ o.lines,
        ∃ r ∈ soldShop.db.inventory.reservations,
          ReservedFor o line r ∧ r.status = .consumed := by
  refine ⟨by decide, fun o ho hpaid line hline => ?_⟩
  obtain ⟨r, hr, hfor, hst, -⟩ :=
    (paid_orders_consumed sampleShop_initial soldShop_reached o ho hpaid).2 line hline
  exact ⟨r, hr, hfor, hst⟩

/-- **Stock moves for orders only, and leaves for money only.** Every reservation is one of
a line of a stored order, over its SKU and quantity and for its own request, and no line
has two. If it is consumed, the order's payment is captured in full. -/
theorem reservations_backed {s₀ s : State} (h0 : Initial s₀)
    (h : Reach System.step (fun _ _ => True) s₀ s) :
    (∀ r ∈ s.db.inventory.reservations, ∃ o ∈ s.db.checkout.orders, ∃ line ∈ o.lines,
      ReservedFor o line r ∧ (r.status = .consumed → ∃ p ∈ s.db.payment.payments,
        PaymentFor o p ∧ p.capturedAmountMinor = o.totalMinor)) ∧
    ∀ r ∈ s.db.inventory.reservations, ∀ r' ∈ s.db.inventory.reservations,
      r.tenantId = r'.tenantId → r.reservationId = r'.reservationId → r = r' := by
  have hinv := SaleInv.reach h0 h
  have hmoney := MoneyInv.reach h0 h
  refine ⟨fun r hr => ?_, fun r hr r' hr' ht hid => ?_⟩
  · obtain ⟨o, ho, line, hline, hfor, hcaptured⟩ := hinv.order_of_reservation hr
    exact ⟨o, ho, line, hline, hfor, fun hst => hmoney.captured_payment ho (hcaptured hst)⟩
  · exact hinv.db.reservations.eq_of_mem hr hr' (by simp [Inventory.reservationKey, ht, hid])

theorem reservations_backed_sample :
    soldShop.db.inventory.reservations.map (·.status) = [.consumed] ∧
      ∀ r ∈ soldShop.db.inventory.reservations, r.status = .consumed →
        ∃ p ∈ soldShop.db.payment.payments, p.capturedAmountMinor = 200 := by
  have hall : ∀ o ∈ soldShop.db.checkout.orders, o.totalMinor = 200 := by decide
  refine ⟨by decide, fun r hr hst => ?_⟩
  obtain ⟨o, ho, line, -, -, hpaid⟩ :=
    (reservations_backed sampleShop_initial soldShop_reached).1 r hr
  obtain ⟨p, hp, -, hcaptured⟩ := hpaid hst
  exact ⟨p, hp, hcaptured.trans (hall o ho)⟩

/-- **The shop never sells more than it has.** Where the inventory tables start as their
constraints demand, the units of a SKU in paid orders and the units still on hand are
together no more than the units on hand at the start, and no stock row goes below zero. -/
theorem never_oversold {s₀ s : State} (h0 : Initial s₀) (hstocked : Stocked s₀.db)
    (h : Reach System.step (fun _ _ => True) s₀ s) (tenantId : TenantId) (sku : Sku) :
    unitsSold s.db tenantId sku + unitsOnHand s.db tenantId sku ≤
      unitsOnHand s₀.db tenantId sku ∧
    ∀ x ∈ s.db.inventory.stock,
      0 ≤ x.reservedQuantity ∧ x.reservedQuantity ≤ x.onHandQuantity := by
  obtain ⟨base, total, hl₀⟩ := hstocked.ledger h0.reservations
  have hinv := SaleInv.reach h0 h
  obtain ⟨hl, hvariants, hshelves⟩ := (SaleInv.initial h0).ledger hl₀ h
  refine ⟨?_, hl.bounded⟩
  have hsold := hinv.sold_le hl tenantId sku
  have hconsumed := hinv.consumed_le hl tenantId sku
  have hnow := unitsOnHand_add hl tenantId sku
  have hthen := unitsOnHand_add hl₀ tenantId sku
  have hnone : ((s₀.db.inventory.stock.filter (ofSku s₀.db tenantId sku)).map fun x =>
      Inventory.quantityIn .consumed x s₀.db.inventory.reservations).sum = 0 := by
    rw [h0.reservations]
    exact List.sum_eq_zero fun n hn => by
      obtain ⟨x, -, rfl⟩ := List.mem_map.mp hn
      rfl
  rw [hvariants, hshelves] at hnow
  omega

theorem never_oversold_sample :
    unitsSold soldShop.db 1 1 = 2 ∧ unitsOnHand soldShop.db 1 1 = 8 ∧
      unitsSold soldShop.db 1 1 + unitsOnHand soldShop.db 1 1 ≤ unitsOnHand sampleShop.db 1 1 :=
  ⟨by decide, by decide, (never_oversold sampleShop_initial
    ⟨List.nodup_singleton _, List.nodup_singleton _, by decide⟩ soldShop_reached 1 1).1⟩

end CommercePlayground.System
