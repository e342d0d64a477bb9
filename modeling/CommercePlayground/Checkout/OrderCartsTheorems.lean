/-
CommercePlayground.Checkout.OrderCartsTheorems — when a checkout without a cart id gets a
cart.

`CartInv.reach`: after every run the carts have their ids and every order has the cart it was
made from. A new order then gets a cart exactly when its session has had none
(`insertOrder_gets_iff`), and an old one is taken up with an open cart exactly when its cart
has not been checked out since (`reuseOrder_gets_iff`).
-/
import CommercePlayground.Checkout.OrderCarts
import CommercePlayground.Checkout.CartsTheorems
import CommercePlayground.Checkout.AttemptTheorems

namespace CommercePlayground.Checkout

open Lib

/-! ## Carts through a write -/

theorem SameCart.refl (c : Cart) : SameCart c c := ⟨rfl, rfl, rfl, rfl, rfl⟩

theorem SameCart.trans {a b c : Cart} (h : SameCart a b) (h' : SameCart b c) : SameCart a c :=
  ⟨h'.id.trans h.id, h'.tenant.trans h.tenant, h'.customer.trans h.customer,
    h'.session.trans h.session, h'.currency.trans h.currency⟩

theorem IsCartOf.same {o : Order} {c c' : Cart} (h : IsCartOf o c) (hsame : SameCart c c') :
    IsCartOf o c' :=
  ⟨hsame.tenant.trans h.tenant, hsame.id.trans h.id, hsame.customer.trans h.customer,
    hsame.currency.trans h.currency⟩

/-- The carts of a table are still in the other, and their ids are. -/
structure CartsKept (t t' : List Cart) : Prop where
  rows : Evolves SameCart t t'
  ids : KeyUnique (·.id) t → KeyUnique (·.id) t'

theorem CartsKept.refl (t : List Cart) : CartsKept t t := ⟨Evolves.refl SameCart.refl t, id⟩

theorem CartsKept.trans {t u v : List Cart} (h : CartsKept t u) (h' : CartsKept u v) :
    CartsKept t v :=
  ⟨Evolves.trans (fun _ _ _ hab hbc => hab.trans hbc) h.rows h'.rows, fun hu => h'.ids (h.ids hu)⟩

theorem CartsKept.insert {t : List Cart} {c : Cart} (hnew : ∀ d ∈ t, d.id ≠ c.id) :
    CartsKept t (t ++ [c]) :=
  ⟨Evolves.insert SameCart.refl t [c], fun hu => hu.append_singleton hnew⟩

theorem CartsKept.checkOut (sel : Cart → Bool) (t : List Cart) :
    CartsKept t (updateWhere sel (fun c => { c with status := .checkedOut }) t) :=
  ⟨Evolves.update SameCart.refl fun _ _ _ => ⟨rfl, rfl, rfl, rfl, rfl⟩,
    fun hu => hu.updateWhere fun _ _ _ => rfl⟩

theorem CartsKept.ensure (input : CheckoutInput) (cartId : CartId) (db : Db) :
    CartsKept db.checkout.carts (ensureCart input cartId db).checkout.carts := by
  unfold ensureCart
  split
  · exact CartsKept.refl _
  · next hnone =>
    refine CartsKept.insert fun d hd hid => hnone ?_
    exact List.any_eq_true.mpr ⟨d, hd, decide_eq_true (.inl hid)⟩

theorem Change.carts {tx : Tx} {db db' : Db} (h : Change tx db db') :
    CartsKept db.checkout.carts db'.checkout.carts := by
  cases h with
  | cart => exact CartsKept.ensure _ _ _
  | checkOut => exact CartsKept.checkOut _ _
  | pay => unfold insertPaidEvent; split <;> exact CartsKept.refl _
  | redeem htx hr =>
    obtain ⟨t, rfl⟩ := redeemPromotion_frame hr
    exact CartsKept.refl _
  | openAttempt | reclaim | attempts | uuid | order | cancel | exposure | analytics | task
  | tasks | claimTask | reconciliation | reconciliations | claimReconciliation =>
    exact CartsKept.refl _

/-! ## The invariant -/

theorem IsCartOf.of_check {input : CheckoutInput} {lease : CheckoutLease} {cartId : CartId}
    {totals : QuoteTotals} {lines : List OrderLine} {id : OrderId} {db : Db}
    (h : checkCart input cartId db = .ok ()) :
    ∃ c ∈ db.checkout.carts, IsCartOf (newOrder input lease cartId totals lines id) c := by
  unfold checkCart at h
  split at h
  · cases h
  · next c hfind =>
    obtain ⟨hc, hkey⟩ := find?_some_spec hfind
    obtain ⟨htenant, hid⟩ := of_decide_eq_true hkey
    obtain ⟨hcustomer, -, hcurrency, -⟩ := of_decide_eq_true (require_ok h)
    exact ⟨c, hc, htenant, hid, hcustomer, hcurrency⟩

/-- A write keeps every order's cart, and gives one to a new order. -/
theorem OrderWrite.carts {tx : Tx} {db : Db} {t : List Order} (h : OrderWrite tx db t)
    (hdb : ∀ o ∈ db.checkout.orders, ∃ c ∈ db.checkout.carts, IsCartOf o c) :
    ∀ o ∈ t, ∃ c ∈ db.checkout.carts, IsCartOf o c := by
  -- a change of status leaves the order in its cart
  have hclose : ∀ {sel : Order → Bool} {status : OrderStatus},
      ∀ o ∈ updateWhere sel (fun o => { o with status := status }) db.checkout.orders,
        ∃ c ∈ db.checkout.carts, IsCartOf o c := by
    intro sel status
    refine forall_updateWhere hdb fun o _ _ hcart => ?_
    obtain ⟨c, hc, hof⟩ := hcart
    exact ⟨c, hc, hof.tenant, hof.id, hof.customer, hof.currency⟩
  cases h with
  | same => exact hdb
  | insert htx hcart =>
    intro o ho
    rcases List.mem_append.mp ho with hold | hnew
    · exact hdb o hold
    · rw [List.mem_singleton.mp hnew]
      exact IsCartOf.of_check hcart
  | cancel => exact hclose
  | pay => exact hclose

theorem CartInv.change {tx : Tx} {db db' : Db} (h : CartInv db) (hc : Change tx db db') :
    CartInv db' := by
  refine ⟨hc.carts.ids h.ids, fun o ho => ?_⟩
  obtain ⟨c, hmem, hof⟩ := hc.orders.carts h.orders o ho
  obtain ⟨c', hmem', hsame⟩ := hc.carts.rows c hmem
  exact ⟨c', hmem', hof.same hsame⟩

theorem CartInv.congr {db db' : Db} (h : CartInv db)
    (hcarts : db'.checkout.carts = db.checkout.carts)
    (horders : db'.checkout.orders = db.checkout.orders) : CartInv db' :=
  ⟨hcarts ▸ h.ids, by rw [horders, hcarts]; exact h.orders⟩

/-- Payment writes neither orders nor carts. -/
theorem CartInv.paymentEffect {Q : PaymentStore.Scope} {db db' : Db} (h : CartInv db)
    (he : PaymentStore.Effect Q db db') : CartInv db' := by
  cases he with
  | act hq hvalid hnew hact => cases hact <;> exact h.congr rfl rfl
  | refl | refuse | quarantine | resolve => exact h.congr rfl rfl

theorem CartInv.committed {db db' : Db} {a : Action} (h : CartInv db)
    (hc : Committed db a db') : CartInv db' := by
  cases hc with
  | checkout hr => exact (Tx.run_changes hr).invariant h fun _ _ ha hc => ha.change hc
  | inventory hK heff =>
    obtain ⟨hcheckout, -⟩ := heff.frame
    exact h.congr (by rw [hcheckout]) (by rw [hcheckout])
  | payment heff => exact heff.invariant h fun _ _ ha he => ha.paymentEffect he
  | decided hnow hi =>
    obtain ⟨rfl, -, -⟩ := PaymentStore.insertDecision_ok hi
    exact h.congr rfl rfl
  | elapse => exact h.congr rfl rfl

/-! ## `add_cart_item` -/

/-- What a line's transaction leaves of the database: carts may be added, and UUIDs drawn. -/
structure CartsOnly (s s' : Shop) : Prop where
  carts : CartsKept s.db.checkout.carts s'.db.checkout.carts
  orders : s'.db.checkout.orders = s.db.checkout.orders
  payment : s'.db.payment = s.db.payment
  inventory : s'.db.inventory = s.db.inventory

theorem CartsOnly.refl (s : Shop) : CartsOnly s s := ⟨CartsKept.refl _, rfl, rfl, rfl⟩

theorem CartsOnly.trans {s s' s'' : Shop} (h : CartsOnly s s') (h' : CartsOnly s' s'') :
    CartsOnly s s'' :=
  ⟨h.carts.trans h'.carts, h'.orders.trans h.orders, h'.payment.trans h.payment,
    h'.inventory.trans h.inventory⟩

section Line

variable {input : AddCartItemInput} {sessionId : SessionId} {s s' : Shop}

theorem CartsOnly.resolve : CartsOnly s (resolveSession input s).2 := by
  unfold resolveSession
  split
  · exact CartsOnly.refl s
  · exact ⟨CartsKept.refl _, rfl, rfl, rfl⟩

/-- A cart is inserted beside carts of other ids. -/
theorem CartsOnly.append {c : Cart} (hnew : s.db.checkout.carts.any (cartConflicts c) = false)
    (h : appendCart c s = .ok s') : CartsOnly s s' := by
  unfold appendCart at h
  split at h
  · cases h
    refine ⟨CartsKept.insert fun d hd hid => ?_, rfl, rfl, rfl⟩
    have hconflict : cartConflicts c d = true := decide_eq_true (.inl hid)
    rw [List.any_eq_false.mp hnew d hd |> eq_false_of_ne_true] at hconflict
    cases hconflict
  · cases h

theorem CartsOnly.insertOrNothing {c : Cart} {inserted : Bool}
    (h : insertCartOrNothing c s = .ok (inserted, s')) : CartsOnly s s' := by
  unfold insertCartOrNothing at h
  split at h
  · cases h
    exact CartsOnly.refl s
  · next hnew =>
    obtain ⟨s₁, happend, h⟩ := bind_ok h
    cases h
    exact CartsOnly.append (eq_false_of_ne_true hnew) happend

theorem CartsOnly.openNew {o : OpenCart} (h : openNewCart input sessionId s = .ok o) :
    CartsOnly s o.shop := by
  obtain ⟨⟨inserted, s₁⟩, hinsert, h⟩ := bind_ok h
  have hfirst : CartsOnly s s₁ :=
    (show CartsOnly s s.bump from ⟨CartsKept.refl _, rfl, rfl, rfl⟩).trans
      (CartsOnly.insertOrNothing hinsert)
  cases inserted with
  | true =>
    cases h
    exact hfirst
  | false =>
    obtain ⟨s₂, hsecond, h⟩ := bind_ok h
    cases h
    unfold insertCart at hsecond
    split at hsecond
    · cases hsecond
    · next hnew =>
      refine hfirst.trans ?_
      exact (show CartsOnly s₁ s₁.bump from ⟨CartsKept.refl _, rfl, rfl, rfl⟩).trans
        (CartsOnly.append (eq_false_of_ne_true hnew) hsecond)

theorem CartsOnly.openCart {o : OpenCart} (h : openCart input sessionId s = .ok o) :
    CartsOnly s o.shop := by
  unfold Checkout.openCart at h
  split at h
  · obtain ⟨⟨inserted, s₁⟩, hinsert, h⟩ := bind_ok h
    cases h
    exact CartsOnly.insertOrNothing hinsert
  · split at h
    · cases h
      exact CartsOnly.refl s
    · exact CartsOnly.openNew h

theorem CartsOnly.upsert {cartId : CartId} {variantId : VariantId} {unitPrice : Int}
    (h : upsertLine input cartId variantId unitPrice s = .ok s') : CartsOnly s s' := by
  obtain ⟨u, -, h⟩ := bind_ok h
  split at h
  · unfold updateLine at h
    split at h
    · cases h
    · split at h
      · obtain ⟨u, -, h⟩ := bind_ok h
        cases h
        exact ⟨CartsKept.refl _, rfl, rfl, rfl⟩
      · cases h
  · cases h
    exact ⟨CartsKept.refl _, rfl, rfl, rfl⟩

theorem CartsOnly.add {r : AddedCartItem} (h : addCartItem input s = .ok (r, s')) :
    CartsOnly s s' := by
  obtain ⟨u, -, h⟩ := bind_ok h
  obtain ⟨o, hopen, h⟩ := bind_ok h
  obtain ⟨u, -, h⟩ := bind_ok h
  split at h
  · cases h
  · obtain ⟨s₁, hline, h⟩ := bind_ok h
    cases h
    have hwritten : CartsOnly s s₁ :=
      (CartsOnly.resolve.trans (CartsOnly.openCart hopen)).trans (CartsOnly.upsert hline)
    exact ⟨hwritten.carts, hwritten.orders, hwritten.payment, hwritten.inventory⟩

end Line

/-! ## Runs of the shop -/

/-- The invariant of a shop. -/
structure ShopInv (s : Shop) : Prop where
  carts : CartInv s.db
  keys : Keyed s.db

theorem ShopInv.initial {s : Shop} (h : s.Initial) : ShopInv s := by
  refine ⟨⟨h.constraints.cartIds, ?_⟩, ?_, ?_⟩
  · simp [h.orders]
  · rw [h.payments]
    exact KeyUnique.nil _
  · rw [h.reservations]
    exact KeyUnique.nil _

theorem ShopInv.step {s s' : Shop} {a : ShopAction} (h : ShopInv s) (hs : s.step a = some s') :
    ShopInv s' := by
  cases a with
  | addCartItem input =>
    simp only [Shop.step] at hs
    split at hs
    · next r s₁ hadd =>
      cases hs
      have honly := CartsOnly.add hadd
      refine ⟨⟨honly.carts.ids h.carts.ids, fun o ho => ?_⟩, ?_, ?_⟩
      · rw [honly.orders] at ho
        obtain ⟨c, hc, hof⟩ := h.carts.orders o ho
        obtain ⟨c', hc', hsame⟩ := honly.carts.rows c hc
        exact ⟨c', hc', hof.same hsame⟩
      · rw [honly.payment]
        exact h.keys.payments
      · rw [honly.inventory]
        exact h.keys.reservations
    · cases hs
      exact h
  | transaction a updatedAt items =>
    cases hs
    cases hcommit : a.commit s.db with
    | none => exact ⟨h.carts.congr rfl rfl, h.keys⟩
    | some db' =>
      have hc := committed_of_commit h.keys hcommit
      exact ⟨h.carts.committed hc, h.keys.committed hc⟩

theorem ShopInv.reach {s₀ s : Shop} (h0 : s₀.Initial)
    (h : Reach Shop.step (fun _ _ => True) s₀ s) : ShopInv s :=
  h.invariant (ShopInv.initial h0) fun _ _ _ ht _ hs => ht.step hs

/-! ## Errors of other kinds -/

section Errors

variable {input : CheckoutInput} {quote : QuoteResponse} {e : ApiError} {db : Db}

theorem code_of_require {b : Bool} {e' : ApiError} {code : ErrorCode}
    (he' : e'.code ≠ code) (h : require b e' = .error e) : e.code ≠ code := by
  unfold require at h
  split at h
  · cases h
  · cases h
    exact he'

theorem code_of_i32Amount {amount : Int} (h : i32Amount amount = .error e) :
    e.code ≠ .cartPersistenceFailed := by
  unfold i32Amount at h
  split at h
  · cases h
  · cases h
    nofun

theorem code_of_i32Totals {totals : QuoteTotals} (h : i32Totals totals = .error e) :
    e.code ≠ .cartPersistenceFailed := by
  rcases bind_error h with h | ⟨_, -, h⟩
  · exact code_of_i32Amount h
  rcases bind_error h with h | ⟨_, -, h⟩
  · exact code_of_i32Amount h
  rcases bind_error h with h | ⟨_, -, h⟩
  · exact code_of_i32Amount h
  rcases bind_error h with h | ⟨_, -, h⟩
  · exact code_of_i32Amount h
  · cases h

theorem code_of_orderLines {tenantId : TenantId} {items : List CheckoutItemInput}
    (h : orderLines db tenantId quote items = .error e) : e.code ≠ .cartPersistenceFailed := by
  induction items with
  | nil => cases h
  | cons item items ih =>
    unfold orderLines at h
    split at h
    · cases h
      nofun
    · split at h
      · cases h
        nofun
      · split at h
        · cases h
          nofun
        · rcases bind_error h with h | ⟨_, -, h⟩
          · exact code_of_i32Amount h
          rcases bind_error h with h | ⟨_, -, h⟩
          · exact ih h
          · cases h

theorem code_of_linkOrder {g : Generation} {id : OrderId} {message : String}
    (h : linkOrder g id message db = .error e) : e.code ≠ .cartPersistenceFailed := by
  unfold linkOrder at h
  simp only at h
  split at h
  · cases h
  · cases h
    nofun

end Errors

/-! ## The cart of a checkout -/

section Checkout

variable {input : CheckoutInput} {quote : QuoteResponse} {lease : CheckoutLease} {db : Db}

theorem linkOrder_ok {g : Generation} {id : OrderId} {message : String} {db' : Db} :
    linkOrder g id message db = .ok db' ↔ affected (isLinkable g id) db.checkout.attempts = 1 ∧
      db' = updateAttempts db (isLinkable g id)
        fun a => { a with orderId := some id, updatedAt := db.now } := by
  unfold linkOrder
  simp only
  split
  · next hone =>
    constructor
    · intro h
      cases h
      exact ⟨hone, rfl⟩
    · rintro ⟨-, rfl⟩
      rfl
  · next hother =>
    constructor
    · intro h
      cases h
    · rintro ⟨hone, -⟩
      exact absurd hone hother

/-- The totals of a valid quote can be read again. -/
theorem quoteTotals_of_valid (h : validateQuoteResponse input quote = .ok ()) :
    ∃ totals, quoteTotals input quote = .ok totals := by
  unfold validateQuoteResponse at h
  iterate 4
    split at h
    · cases h
  obtain ⟨⟨fromLines, seen⟩, -, h⟩ := bind_ok h
  simp only at h
  split at h
  · cases h
  · unfold validateTotals at h
    iterate 4 obtain ⟨_, -, h⟩ := bind_ok h
    split at h
    · cases h
    · obtain ⟨totals, htotals, -⟩ := bind_ok h
      exact ⟨totals, htotals⟩

/-- The cart a request without one inserts. -/
def freshCart (input : CheckoutInput) (cartId : CartId) : Cart where
  id := cartId
  tenantId := input.tenantId
  customerId := some input.customerId
  sessionId := some input.sessionId
  status := .active
  currency := input.currencyCode

theorem ensureCart_used {c : Cart} (hc : c ∈ db.checkout.carts)
    (htenant : c.tenantId = input.tenantId) (hsession : c.sessionId = some input.sessionId)
    (cartId : CartId) : ensureCart input cartId db = db := by
  unfold ensureCart
  exact if_pos (List.any_eq_true.mpr ⟨c, hc, decide_eq_true (.inr ⟨htenant, hsession⟩)⟩)

theorem ensureCart_unused {cartId : CartId} (hfresh : ∀ c ∈ db.checkout.carts, c.id ≠ cartId)
    (hunused : ∀ c ∈ db.checkout.carts, c.tenantId = input.tenantId →
      c.sessionId ≠ some input.sessionId) :
    ensureCart input cartId db = setCarts db (db.checkout.carts ++ [freshCart input cartId]) := by
  unfold ensureCart
  refine if_neg fun hany => ?_
  obtain ⟨c, hc, hconflict⟩ := List.any_eq_true.mp hany
  rcases of_decide_eq_true hconflict with hid | ⟨htenant, hsession⟩
  · exact hfresh c hc hid
  · exact hunused c hc htenant hsession

theorem checkCart_missing {cartId : CartId} (hfresh : ∀ c ∈ db.checkout.carts, c.id ≠ cartId) :
    checkCart input cartId db =
      .error ⟨500, .cartPersistenceFailed, "checkout cart was not persisted"⟩ := by
  have hnone : db.checkout.carts.find? (fun c =>
      decide (c.tenantId = input.tenantId ∧ c.id = cartId)) = none :=
    List.find?_eq_none.mpr fun c hc hkey => hfresh c hc (of_decide_eq_true hkey).2
  unfold checkCart
  rw [hnone]

theorem checkCart_fresh {cartId : CartId} (hfresh : ∀ c ∈ db.checkout.carts, c.id ≠ cartId) :
    checkCart input cartId (setCarts db (db.checkout.carts ++ [freshCart input cartId])) =
      .ok () := by
  have hnone : db.checkout.carts.find? (fun c =>
      decide (c.tenantId = input.tenantId ∧ c.id = cartId)) = none :=
    List.find?_eq_none.mpr fun c hc hkey => hfresh c hc (of_decide_eq_true hkey).2
  have hfind : (db.checkout.carts ++ [freshCart input cartId]).find? (fun c =>
      decide (c.tenantId = input.tenantId ∧ c.id = cartId)) = some (freshCart input cartId) := by
    rw [List.find?_append, hnone]
    simp [freshCart]
  have hcarts : (setCarts db (db.checkout.carts ++ [freshCart input cartId])).checkout.carts =
      db.checkout.carts ++ [freshCart input cartId] := rfl
  unfold checkCart
  rw [hcarts, hfind]
  simp [require, freshCart]

theorem createPendingOrder_old (hinput : validateInput input = .ok ())
    (hquote : validateQuoteResponse input quote = .ok ()) {o : Order}
    (ho : orderOfRequest db input.tenantId lease.requestId = some o) :
    createPendingOrder input quote lease db = reuseOrder input lease o db := by
  unfold createPendingOrder
  rw [hinput, hquote, ho]
  rfl

theorem createPendingOrder_new (hinput : validateInput input = .ok ())
    (hquote : validateQuoteResponse input quote = .ok ())
    (ho : orderOfRequest db input.tenantId lease.requestId = none) :
    createPendingOrder input quote lease db = insertOrder input quote lease db := by
  unfold createPendingOrder
  rw [hinput, hquote, ho]
  rfl

/-- The session has had a cart: the new one is not inserted, and not found. -/
theorem insertOrder_used (hcart : input.cartId = none) {totals : QuoteTotals}
    (htotals : quoteTotals input quote = .ok totals)
    (hfresh : ∀ c ∈ db.checkout.carts, c.id ≠ db.nextUuid) {c : Cart}
    (hc : c ∈ db.checkout.carts) (htenant : c.tenantId = input.tenantId)
    (hsession : c.sessionId = some input.sessionId) :
    insertOrder input quote lease db =
      .error ⟨500, .cartPersistenceFailed, "checkout cart was not persisted"⟩ := by
  have hchosen : chosenCart input db = db.nextUuid := by
    unfold chosenCart
    rw [hcart]
    rfl
  have hensure : ensureCart input db.nextUuid (bumpUuid db) = bumpUuid db :=
    @ensureCart_used input (bumpUuid db) c hc htenant hsession db.nextUuid
  unfold insertOrder
  simp only [htotals, hchosen, hensure]
  rw [@checkCart_missing input (bumpUuid db) db.nextUuid hfresh]
  rfl

/-- The session has had none: the new cart is the order's. -/
theorem insertOrder_unused (hcart : input.cartId = none) {totals : QuoteTotals}
    (htotals : quoteTotals input quote = .ok totals)
    (hfresh : ∀ c ∈ db.checkout.carts, c.id ≠ db.nextUuid)
    (hunused : ∀ c ∈ db.checkout.carts, c.tenantId = input.tenantId →
      c.sessionId ≠ some input.sessionId) :
    (∀ e, insertOrder input quote lease db = .error e → e.code ≠ .cartPersistenceFailed) ∧
    ∀ order db', insertOrder input quote lease db = .ok (order, db') →
      InOpenCart input order db' := by
  have hchosen : chosenCart input db = db.nextUuid := by
    unfold chosenCart
    rw [hcart]
    rfl
  have hensure : ensureCart input db.nextUuid (bumpUuid db) = setCarts (bumpUuid db)
      (db.checkout.carts ++ [freshCart input db.nextUuid]) :=
    @ensureCart_unused input (bumpUuid db) db.nextUuid hfresh hunused
  have hcheck : checkCart input db.nextUuid (setCarts (bumpUuid db)
      (db.checkout.carts ++ [freshCart input db.nextUuid])) = .ok () :=
    @checkCart_fresh input (bumpUuid db) db.nextUuid hfresh
  unfold insertOrder
  simp only [htotals, hchosen, hensure]
  constructor
  · intro e h
    rcases bind_error h with h | ⟨_, -, h⟩
    · cases h
    rcases bind_error h with h | ⟨_, -, h⟩
    · rw [hcheck] at h
      cases h
    rcases bind_error h with h | ⟨lines, -, h⟩
    · exact code_of_orderLines h
    rcases bind_error h with h | ⟨_, -, h⟩
    · exact code_of_i32Totals h
    rcases bind_error h with h | ⟨_, -, h⟩
    · refine code_of_require ?_ h
      nofun
    rcases bind_error h with h | ⟨_, -, h⟩
    · exact code_of_linkOrder h
    · cases h
  · intro order db' h
    obtain ⟨_, htotals', h⟩ := bind_ok h
    obtain ⟨_, -, h⟩ := bind_ok h
    obtain ⟨lines, -, h⟩ := bind_ok h
    obtain ⟨_, -, h⟩ := bind_ok h
    obtain ⟨_, -, h⟩ := bind_ok h
    obtain ⟨db₃, hlink, h⟩ := bind_ok h
    obtain ⟨-, rfl⟩ := linkOrder_ok.mp hlink
    cases h
    exact ⟨freshCart input db.nextUuid, List.mem_append_right _ List.mem_cons_self, rfl, rfl, rfl,
      rfl, rfl, rfl⟩

/-- The cart of an order that is there already. -/
theorem CartInv.cartOf (h : CartInv db) {o : Order} (ho : o ∈ db.checkout.orders) :
    ∃ c ∈ db.checkout.carts, IsCartOf o c ∧ Checkout.cartOf db o = some c := by
  obtain ⟨c, hc, hof⟩ := h.orders o ho
  refine ⟨c, hc, hof, ?_⟩
  unfold Checkout.cartOf
  cases hfind : db.checkout.carts.find? fun c =>
      decide (c.tenantId = o.tenantId ∧ c.id = o.cartId) with
  | none => exact absurd (decide_eq_true ⟨hof.tenant, hof.id⟩) (List.find?_eq_none.mp hfind c hc)
  | some d =>
    obtain ⟨hd, hkey⟩ := find?_some_spec hfind
    rw [h.ids.eq_of_mem hd hc ((of_decide_eq_true hkey).2.trans hof.id.symm)]

theorem reuseOrder_ok {o : Order} {order : PendingOrder} {db' : Db} :
    reuseOrder input lease o db = .ok (order, db') ↔
      Reusable input lease db o ∧ order = pendingOrder o input.sessionId ∧
        db' = updateAttempts db (isLinkable (orderGeneration input lease) o.id)
          fun a => { a with orderId := some o.id, updatedAt := db.now } := by
  unfold reuseOrder
  constructor
  · intro h
    obtain ⟨_, hidentity, h⟩ := bind_ok h
    obtain ⟨db₁, hlink, h⟩ := bind_ok h
    obtain ⟨hone, rfl⟩ := linkOrder_ok.mp hlink
    obtain ⟨hcustomer, hcurrency, hsession⟩ := of_decide_eq_true (require_ok hidentity)
    cases h
    exact ⟨⟨hcustomer, hcurrency, hsession, hone⟩, rfl, rfl⟩
  · rintro ⟨hreuse, rfl, rfl⟩
    rw [bind_ok_iff]
    refine ⟨(), ?_, bind_ok_iff.mpr ⟨_, linkOrder_ok.mpr ⟨hreuse.attempt, rfl⟩, rfl⟩⟩
    unfold require
    exact if_pos (decide_eq_true ⟨hreuse.customer, hreuse.currency, hreuse.session⟩)

theorem code_of_reuseOrder {o : Order} {e : ApiError}
    (h : reuseOrder input lease o db = .error e) : e.code ≠ .cartPersistenceFailed := by
  rcases bind_error h with h | ⟨_, -, h⟩
  · refine code_of_require ?_ h
    nofun
  rcases bind_error h with h | ⟨_, -, h⟩
  · exact code_of_linkOrder h
  · cases h

/-- An old order is taken up in the cart it has. -/
theorem reuseOrder_gets_iff (hinv : CartInv db) {o : Order}
    (ho : orderOfRequest db input.tenantId lease.requestId = some o) :
    (∀ order db', reuseOrder input lease o db = .ok (order, db') → InOpenCart input order db') ↔
      (Reusable input lease db o → (Checkout.cartOf db o).map (·.status) = some .active) := by
  obtain ⟨hmem, htenant, -⟩ := orderOfRequest_some ho
  obtain ⟨c, hc, hof, hcart⟩ := hinv.cartOf hmem
  rw [hcart, Option.map_some, Option.some.injEq]
  constructor
  · intro h hreuse
    obtain ⟨d, hd, hid, -, -, -, -, hactive⟩ := h _ _ (reuseOrder_ok.mpr ⟨hreuse, rfl, rfl⟩)
    rw [hinv.ids.eq_of_mem hc hd (hof.id.trans hid.symm)]
    exact hactive
  · rintro hactive order db' h
    obtain ⟨hreuse, rfl, rfl⟩ := reuseOrder_ok.mp h
    have hsession := hreuse.session
    rw [hcart] at hsession
    exact ⟨c, hc, hof.id, hof.tenant.trans htenant, hof.customer.trans (by rw [hreuse.customer]),
      hsession, hof.currency.trans hreuse.currency, hactive hreuse⟩

/-- After every run of `add_cart_item` and of checkout, a checkout without a cart id gets a
cart exactly when its session has had none, or its order is there already and not to be taken
up in a cart that is checked out. -/
theorem create_pending_order_cart_iff {s₀ s : Shop} (h0 : s₀.Initial)
    (hs : Reach Shop.step (fun _ _ => True) s₀ s) (hinput : validateInput input = .ok ())
    (hquote : validateQuoteResponse input quote = .ok ()) (hcart : input.cartId = none)
    (hfresh : ∀ c ∈ s.db.checkout.carts, c.id ≠ s.db.nextUuid) :
    GetsCart input quote lease s.db ↔ CartReady input lease s.db := by
  have hinv := (ShopInv.reach h0 hs).carts
  obtain ⟨totals, htotals⟩ := quoteTotals_of_valid hquote
  unfold GetsCart
  cases ho : orderOfRequest s.db input.tenantId lease.requestId with
  | some o =>
    rw [createPendingOrder_old hinput hquote ho]
    constructor
    · rintro ⟨-, hok⟩
      refine ⟨fun hnone => ?_, fun o' ho' => ?_⟩
      · rw [ho] at hnone
        cases hnone
      · rw [ho] at ho'
        cases ho'
        exact (reuseOrder_gets_iff hinv ho).mp hok
    · intro h
      exact ⟨fun e => code_of_reuseOrder, (reuseOrder_gets_iff hinv ho).mpr (h.kept o ho)⟩
  | none =>
    rw [createPendingOrder_new hinput hquote ho]
    constructor
    · rintro ⟨herror, -⟩
      refine ⟨fun _ c hc htenant hsession => ?_, fun o' ho' => ?_⟩
      · exact herror _ (insertOrder_used hcart htotals hfresh hc htenant hsession) rfl
      · rw [ho] at ho'
        cases ho'
    · intro h
      exact insertOrder_unused hcart htotals hfresh (h.unused ho)

end Checkout

/-- A shop with one customer, one SKU, and no carts. -/
def emptyShop : Shop where
  db := {
    now := 10
    nextUuid := 100
    checkout := ⟨[], [], [], [], [], [], [], [], []⟩
    payment := ⟨0, [], [], []⟩
    inventory := ⟨[⟨5, 1, 1, true, true⟩], [], [], []⟩ }
  customers := [(1, 1)]
  prices := [⟨1, 5, 1, 100, 0, none, true⟩]
  updatedAt := fun _ => 0
  items := []

/-- A checkout of the customer in a session. -/
def sessionRequest (sessionId : SessionId) : CheckoutInput where
  tenantId := 1
  customerId := 1
  sessionId := sessionId
  cartId := none
  items := [⟨1, 2⟩]
  currencyCode := 1
  promotionCode := none
  paymentMethodToken := .other 0
  paymentMethodType := .card
  requestId := ⟨7, 1⟩
  degrade := false
  profile := 0

def sessionQuote : QuoteResponse where
  ready := true
  identified := true
  validForSeconds := 60
  lines := [⟨1, 2, some ⟨1, 100⟩, some ⟨1, 200⟩⟩]
  subtotal := some ⟨1, 200⟩
  discountTotal := some ⟨1, 0⟩
  taxTotal := some ⟨1, 0⟩
  grandTotal := some ⟨1, 200⟩

/-- A line is put into a cart in the session 3, and a checkout claims its attempt. -/
def usedSteps (sessionId : SessionId) : List ShopAction :=
  [.transaction (.checkout (.claimCheckoutAttempt 1 ⟨7, 1⟩ (sessionRequest sessionId)))
      (fun _ => 0) [],
    .addCartItem ⟨1, 1, none, some 3, 1, 2, 1⟩]

def usedShop (sessionId : SessionId) : Shop :=
  (run Shop.step emptyShop (usedSteps sessionId)).getD emptyShop

theorem emptyShop_initial : emptyShop.Initial where
  constraints :=
    { cartIds := KeyUnique.nil _
      sessions := fun c hc => absurd hc List.not_mem_nil
      owners := fun c hc => absurd hc List.not_mem_nil
      customers := fun c hc => absurd hc List.not_mem_nil
      lines := KeyUnique.nil _
      carts := fun i hi => absurd hi List.not_mem_nil
      checks := fun i hi => absurd hi List.not_mem_nil
      prices := by simp [emptyShop] }
  orders := rfl
  payments := rfl
  reservations := rfl

theorem create_pending_order_cart_iff_other_session :
    GetsCart (sessionRequest 4) sessionQuote ⟨1, ⟨7, 1⟩, 100⟩ (usedShop 4).db := by
  have hs : Reach Shop.step (fun _ _ => True) emptyShop (usedShop 4) :=
    reach_of_run (show run Shop.step emptyShop (usedSteps 4) = some (usedShop 4) from rfl)
  refine (create_pending_order_cart_iff emptyShop_initial hs rfl rfl rfl (by decide)).mpr ?_
  have hnone : orderOfRequest (usedShop 4).db 1 ⟨7, 1⟩ = none := rfl
  refine ⟨fun _ => by decide, fun o ho => ?_⟩
  cases hnone.symm.trans ho

/-- The session of the cart is checked out without its id. -/
theorem create_pending_order_same_session :
    emptyShop.Initial ∧ Reach Shop.step (fun _ _ => True) emptyShop (usedShop 3) ∧
      validateInput (sessionRequest 3) = .ok () ∧
      validateQuoteResponse (sessionRequest 3) sessionQuote = .ok () ∧
      (sessionRequest 3).cartId = none ∧
      createPendingOrder (sessionRequest 3) sessionQuote ⟨1, ⟨7, 1⟩, 100⟩ (usedShop 3).db =
        .error ⟨500, .cartPersistenceFailed, "checkout cart was not persisted"⟩ :=
  ⟨emptyShop_initial,
    reach_of_run (show run Shop.step emptyShop (usedSteps 3) = some (usedShop 3) from rfl), rfl,
    rfl, rfl, rfl⟩

end CommercePlayground.Checkout
