/-
CommercePlayground.Checkout.CartsTheorems — when a request without a cart id puts its line
in a cart.

`upsertLine_iff` says when the line is written and what the items are then. The cart comes
first: `openCart_session` finds that of the session, `openCart_customer` one of another
session, which the later check refuses, and `openCart_new` makes one. `addCartItem_iff` puts
them together.
-/
import CommercePlayground.Checkout.Carts

namespace CommercePlayground.Checkout

open Lib

/-! ## Lines -/

theorem isLine_iff {tenantId : TenantId} {cartId : CartId} {variantId : VariantId}
    {i : CartItem} : isLine tenantId cartId variantId i = true ↔
      i.tenantId = tenantId ∧ i.cartId = cartId ∧ i.variantId = variantId := decide_eq_true_iff

theorem isLine_addQuantity {tenantId : TenantId} {cartId : CartId} {variantId : VariantId}
    (quantity unitPrice : Int) (i : CartItem) :
    isLine tenantId cartId variantId (addQuantity quantity unitPrice i) =
      isLine tenantId cartId variantId i := rfl

theorem checkLine_ok {i : CartItem} : checkLine i = .ok () ↔
    i.quantity * i.unitPriceMinor ≤ maxInteger ∧ 0 < i.quantity ∧ 0 ≤ i.unitPriceMinor ∧
      0 ≤ i.discountMinor ∧ i.discountMinor ≤ i.quantity * i.unitPriceMinor := by
  unfold checkLine
  split
  · next h =>
    constructor
    · intro hok
      cases hok
    · intro hbounds
      omega
  · next h =>
    split
    · next hbounds => exact ⟨fun _ => ⟨by omega, hbounds⟩, fun _ => rfl⟩
    · next hbounds =>
      constructor
      · intro hok
        cases hok
      · intro hall
        exact absurd hall.2 hbounds

section Upsert

variable {input : AddCartItemInput} {cartId : CartId} {variantId : VariantId} {unitPrice : Int}
variable {s : Shop}

/-- What the constraints say of the lines by themselves. -/
structure ValidLines (items : List CartItem) : Prop where
  unique : KeyUnique lineKey items
  checks : ∀ i ∈ items, checkLine i = .ok ()

theorem ValidLines.bounds {items : List CartItem} (h : ValidLines items) {i : CartItem}
    (hi : i ∈ items) : 0 < i.quantity ∧ 0 ≤ i.discountMinor := by
  have hcheck := checkLine_ok.mp (h.checks i hi)
  exact ⟨hcheck.2.1, hcheck.2.2.2.1⟩

/-- The line that is proposed. -/
def proposedLine (input : AddCartItemInput) (cartId : CartId) (variantId : VariantId)
    (unitPrice : Int) (s : Shop) : CartItem :=
  ⟨s.db.nextUuid, input.tenantId, cartId, variantId, input.quantity, unitPrice, 0⟩

/-- The items with the line, new or grown. -/
def grownItems (input : AddCartItemInput) (cartId : CartId) (variantId : VariantId)
    (unitPrice : Int) (s : Shop) : List CartItem :=
  match s.items.find? (isLine input.tenantId cartId variantId) with
  | some _ => updateWhere (isLine input.tenantId cartId variantId)
      (addQuantity input.quantity unitPrice) s.items
  | none => s.items ++ [proposedLine input cartId variantId unitPrice s]

theorem proposedLine_ok (hquantity : 0 < input.quantity) (hprice : 0 ≤ unitPrice) :
    checkLine (proposedLine input cartId variantId unitPrice s) = .ok () ↔
      input.quantity * unitPrice ≤ maxInteger := by
  rw [checkLine_ok]
  have hpos : (0 : Int) < input.quantity := by omega
  have hnonneg : 0 ≤ (input.quantity : Int) * unitPrice := Int.mul_nonneg (by omega) hprice
  exact ⟨fun h => h.1, fun h => ⟨h, hpos, hprice, Int.le_refl 0, hnonneg⟩⟩

theorem upsertLine_new (hquantity : 0 < input.quantity) (hprice : 0 ≤ unitPrice)
    (hfind : s.items.find? (isLine input.tenantId cartId variantId) = none) {s' : Shop} :
    upsertLine input cartId variantId unitPrice s = .ok s' ↔
      input.quantity * unitPrice ≤ maxInteger ∧
        s' = s.bump.setItems (s.items ++ [proposedLine input cartId variantId unitPrice s]) := by
  unfold upsertLine
  rw [bind_ok_iff, hfind]
  constructor
  · rintro ⟨u, hcheck, hs'⟩
    exact ⟨(proposedLine_ok hquantity hprice).mp hcheck, (Except.ok.inj hs').symm⟩
  · rintro ⟨hfits, rfl⟩
    exact ⟨(), (proposedLine_ok hquantity hprice).mpr hfits, rfl⟩

theorem upsertLine_grown (hlines : ValidLines s.items) (hquantity : 0 < input.quantity)
    (hprice : 0 ≤ unitPrice) {i : CartItem}
    (hfind : s.items.find? (isLine input.tenantId cartId variantId) = some i)
    (hmax : i.quantity + input.quantity ≤ (maxQuantity : Int)) {s' : Shop} :
    upsertLine input cartId variantId unitPrice s = .ok s' ↔
      ((i.quantity + input.quantity) * unitPrice ≤ maxInteger ∧
        i.discountMinor ≤ (i.quantity + input.quantity) * unitPrice) ∧
        s' = s.bump.setItems (updateWhere (isLine input.tenantId cartId variantId)
          (addQuantity input.quantity unitPrice) s.items) := by
  obtain ⟨hi, hline⟩ := find?_some_spec hfind
  obtain ⟨hpos, hdiscount⟩ := hlines.bounds hi
  obtain ⟨htenant, hcart, hvariant⟩ := isLine_iff.mp hline
  have hgrown : checkLine (addQuantity input.quantity unitPrice i) = .ok () ↔
      (i.quantity + input.quantity) * unitPrice ≤ maxInteger ∧
        i.discountMinor ≤ (i.quantity + input.quantity) * unitPrice := by
    rw [checkLine_ok]
    show _ ∧ 0 < i.quantity + input.quantity ∧ 0 ≤ unitPrice ∧ 0 ≤ i.discountMinor ∧ _ ↔ _
    exact ⟨fun h => ⟨h.1, h.2.2.2.2⟩, fun h => ⟨h.1, by omega, hprice, hdiscount, h.2⟩⟩
  have hinteger : ¬ maxInteger < i.quantity + input.quantity := by
    have hbound : (maxQuantity : Int) ≤ maxInteger := by decide
    omega
  unfold upsertLine
  rw [bind_ok_iff, hfind]
  simp only
  unfold updateLine
  rw [if_neg hinteger, if_pos hmax, htenant, hcart, hvariant]
  constructor
  · rintro ⟨-, -, hs'⟩
    obtain ⟨u, hcheck, hs'⟩ := bind_ok hs'
    exact ⟨hgrown.mp hcheck, (Except.ok.inj hs').symm⟩
  · rintro ⟨hfits, rfl⟩
    have hless : (input.quantity : Int) * unitPrice ≤
        (i.quantity + input.quantity) * unitPrice :=
      Int.mul_le_mul_of_nonneg_right (by omega) hprice
    exact ⟨(), (proposedLine_ok hquantity hprice).mpr (Int.le_trans hless hfits.1),
      bind_ok_iff.mpr ⟨(), hgrown.mpr hfits, rfl⟩⟩

/-- The line is written just if it fits. -/
theorem upsertLine_eq (hlines : ValidLines s.items) (hquantity : 0 < input.quantity)
    (hprice : 0 ≤ unitPrice)
    (hmax : lineQuantity s.items input.tenantId cartId variantId + input.quantity ≤
      (maxQuantity : Int)) {s' : Shop} :
    upsertLine input cartId variantId unitPrice s = .ok s' ↔
      LineFits s input cartId variantId unitPrice ∧
        s' = s.bump.setItems (grownItems input cartId variantId unitPrice s) := by
  unfold LineFits grownItems
  unfold lineQuantity at hmax ⊢
  unfold lineDiscount
  cases hfind : s.items.find? (isLine input.tenantId cartId variantId) with
  | none =>
    rw [upsertLine_new hquantity hprice hfind]
    have hnonneg : 0 ≤ (input.quantity : Int) * unitPrice := Int.mul_nonneg (by omega) hprice
    simp [hnonneg]
  | some i =>
    rw [hfind] at hmax
    exact upsertLine_grown hlines hquantity hprice hfind hmax

/-- What the items are then. -/
theorem grownItems_spec (hlines : ValidLines s.items) :
    (grownItems input cartId variantId unitPrice s).filter
        (fun i => !isLine input.tenantId cartId variantId i) =
      s.items.filter (fun i => !isLine input.tenantId cartId variantId i) ∧
    lineQuantity (grownItems input cartId variantId unitPrice s) input.tenantId cartId variantId =
      lineQuantity s.items input.tenantId cartId variantId + input.quantity ∧
    KeyUnique lineKey (grownItems input cartId variantId unitPrice s) := by
  have hproposed : isLine input.tenantId cartId variantId
      (proposedLine input cartId variantId unitPrice s) = true := isLine_iff.mpr ⟨rfl, rfl, rfl⟩
  unfold grownItems
  cases hfind : s.items.find? (isLine input.tenantId cartId variantId) with
  | none =>
    refine ⟨?_, ?_, ?_⟩
    · simp [List.filter_append, hproposed]
    · unfold lineQuantity
      simp only [List.find?_append, hfind, Option.none_or, List.find?_cons, hproposed]
      simp [proposedLine]
    · refine hlines.unique.append_singleton fun i hi hkey => ?_
      refine List.find?_eq_none.mp hfind i hi (isLine_iff.mpr ?_)
      simpa [lineKey, proposedLine] using hkey
  | some i =>
    refine ⟨?_, ?_, ?_⟩
    · refine filter_updateWhere fun j _ hj => ?_
      rw [isLine_addQuantity, hj]
      exact ⟨rfl, rfl⟩
    · unfold lineQuantity
      rw [find?_updateWhere fun j _ _ => isLine_addQuantity _ _ j, hfind]
      simp [(find?_some_spec hfind).2, addQuantity]
    · exact hlines.unique.updateWhere fun _ _ _ => rfl

end Upsert

/-! ## Finding a cart -/

section Find

variable {input : AddCartItemInput} {sessionId : SessionId} {s : Shop}

theorem latestCart_some {sel : Cart → Bool} {c : Cart} (h : s.latestCart sel = some c) :
    c ∈ s.db.checkout.carts ∧ sel c = true :=
  List.mem_filter.mp (List.argmax_mem h)

theorem latestCart_none {sel : Cart → Bool} :
    s.latestCart sel = none ↔ ∀ c ∈ s.db.checkout.carts, sel c = false := by
  unfold Shop.latestCart
  rw [List.argmax_eq_none, List.filter_eq_nil_iff]
  simp only [Bool.not_eq_true]

theorem isSessionCart_iff {c : Cart} : isSessionCart input sessionId c = true ↔
    isCustomerCart input c = true ∧ c.sessionId = some sessionId := by
  unfold isSessionCart
  rw [Bool.and_eq_true, decide_eq_true_iff]

theorem isCustomerCart_iff {c : Cart} : isCustomerCart input c = true ↔
    c.tenantId = input.tenantId ∧ c.customerId = some input.customerId ∧
      c.currency = input.currencyCode ∧ c.status = .active := decide_eq_true_iff

/-- A session has one cart at most. -/
theorem existingCart_session (hs : s.Constraints) {c : Cart} (hc : c ∈ s.db.checkout.carts)
    (hsession : isSessionCart input sessionId c = true) :
    existingCart input sessionId s = some c := by
  unfold existingCart
  cases hfind : s.latestCart (isSessionCart input sessionId) with
  | none =>
    rw [latestCart_none.mp hfind c hc] at hsession
    cases hsession
  | some d =>
    obtain ⟨hd, hdsession⟩ := latestCart_some hfind
    obtain ⟨hcustomer, hcsession⟩ := isSessionCart_iff.mp hsession
    obtain ⟨hdcustomer, hdsession⟩ := isSessionCart_iff.mp hdsession
    have htenant : d.tenantId = c.tenantId :=
      (isCustomerCart_iff.mp hdcustomer).1.trans (isCustomerCart_iff.mp hcustomer).1.symm
    rw [hs.sessions d hd c hc htenant (hdsession.trans hcsession.symm)
      (by rw [hdsession]; rfl)]

/-- Without one, a cart of another session is found. -/
theorem existingCart_customer
    (hsession : ∀ c ∈ s.db.checkout.carts, isSessionCart input sessionId c = false) {c : Cart}
    (hc : c ∈ s.db.checkout.carts) (hcustomer : isCustomerCart input c = true) :
    ∃ d ∈ s.db.checkout.carts, existingCart input sessionId s = some d ∧
      isCustomerCart input d = true ∧ d.sessionId ≠ some sessionId := by
  unfold existingCart
  rw [latestCart_none.mpr hsession]
  cases hfind : s.latestCart (isCustomerCart input) with
  | none =>
    rw [latestCart_none.mp hfind c hc] at hcustomer
    cases hcustomer
  | some d =>
    obtain ⟨hd, hdcustomer⟩ := latestCart_some hfind
    refine ⟨d, hd, rfl, hdcustomer, fun hdsession => ?_⟩
    have hfalse := hsession d hd
    rw [isSessionCart_iff.mpr ⟨hdcustomer, hdsession⟩] at hfalse
    cases hfalse

theorem existingCart_none
    (hcustomer : ∀ c ∈ s.db.checkout.carts, isCustomerCart input c = false) :
    existingCart input sessionId s = none := by
  have hsession : ∀ c ∈ s.db.checkout.carts, isSessionCart input sessionId c = false := by
    intro c hc
    unfold isSessionCart
    rw [hcustomer c hc, Bool.false_and]
  unfold existingCart
  rw [latestCart_none.mpr hsession]
  exact latestCart_none.mpr hcustomer

/-- A cart passes just if it is the customer's own, open, and of the session. -/
theorem checkOpenCart_iff {o : OpenCart} {c : Cart}
    (hids : KeyUnique (·.id) o.shop.db.checkout.carts) (hc : c ∈ o.shop.db.checkout.carts)
    (hid : c.id = o.cartId) (htenant : c.tenantId = input.tenantId) :
    checkOpenCart input o = .ok () ↔
      isCustomerCart input c = true ∧ c.sessionId = some o.sessionId := by
  have hfind : o.shop.db.checkout.carts.find? (fun c =>
      decide (c.tenantId = input.tenantId ∧ c.id = o.cartId)) = some c := by
    cases hfind : o.shop.db.checkout.carts.find? fun c =>
        decide (c.tenantId = input.tenantId ∧ c.id = o.cartId) with
    | none => exact absurd (decide_eq_true ⟨htenant, hid⟩) (List.find?_eq_none.mp hfind c hc)
    | some d =>
      obtain ⟨hd, hkey⟩ := find?_some_spec hfind
      rw [hids.eq_of_mem hd hc ((of_decide_eq_true hkey).2.trans hid.symm)]
  unfold checkOpenCart
  rw [hfind]
  cases hsession : c.sessionId with
  | none => simp [hsession]
  | some cartSession =>
    simp only [hsession, expect]
    split
    · next h => simpa using h
    · next h => simpa using h

end Find

/-! ## A new cart -/

theorem Frame.refl (s : Shop) : Frame s s := ⟨rfl, rfl, rfl, rfl⟩

theorem Frame.trans {s s' s'' : Shop} (h : Frame s s') (h' : Frame s' s'') : Frame s s'' := by
  refine ⟨?_, ?_, h'.customers.trans h.customers, h'.prices.trans h.prices⟩
  · have hdb := h.db
    rw [← h'.db] at hdb
    exact hdb
  · have htables := h.tables
    rw [← h'.tables] at htables
    exact htables

theorem activePrice_frame {s s' : Shop} (h : Frame s s') (input : AddCartItemInput) :
    activePrice input s' = activePrice input s := by
  have hinventory := congrArg Db.inventory h.db
  have hnow := congrArg Db.now h.db
  dsimp only at hinventory hnow
  unfold activePrice
  rw [hinventory, hnow, h.prices]

/-- A cart that has been made, in a session of its own. -/
structure Opened (input : AddCartItemInput) (s : Shop) (o : OpenCart) : Prop where
  frame : Frame s o.shop
  carts : o.shop.db.checkout.carts =
    s.db.checkout.carts ++ [newCart input o.cartId o.sessionId]
  ids : ∀ c ∈ s.db.checkout.carts, c.id ≠ o.cartId
  items : o.shop.items = s.items
  updatedAt : ∀ id, id ≠ o.cartId → o.shop.updatedAt id = s.updatedAt id

section New

variable {input : AddCartItemInput} {sessionId : SessionId} {s : Shop}

/-- A new cart has been inserted. -/
def Shop.withCart (s : Shop) (c : Cart) : Shop :=
  { s.setCarts (s.db.checkout.carts ++ [c]) with
    updatedAt := fun id => if id = c.id then s.db.now else s.updatedAt id }

theorem appendCart_eq (cartId : CartId) (sessionId : SessionId) (s : Shop) :
    appendCart (newCart input cartId sessionId) s =
      if (input.tenantId, input.customerId) ∈ s.customers then
        .ok (s.withCart (newCart input cartId sessionId))
      else .error (.database .foreignKey) := by
  unfold appendCart Shop.withCart newCart
  simp only [Option.all_some, decide_eq_true_eq]

theorem cartConflicts_iff {cartId : CartId} {d : Cart} :
    cartConflicts (newCart input cartId sessionId) d = true ↔
      d.id = cartId ∨ (d.tenantId = input.tenantId ∧ d.sessionId = some sessionId) := by
  unfold cartConflicts newCart
  rw [decide_eq_true_iff]
  constructor
  · rintro (h | ⟨htenant, -, hsession⟩)
    · exact .inl h
    · exact .inr ⟨htenant, hsession⟩
  · rintro (h | ⟨htenant, hsession⟩)
    · exact .inl h
    · exact .inr ⟨htenant, by rw [hsession]; rfl, hsession⟩

/-- Whether a cart of the session is there already decides the session of the new one. -/
theorem openNewCart_eq (hfresh : s.Fresh) : openNewCart input sessionId s =
    if (input.tenantId, input.customerId) ∈ s.customers then
      if s.db.checkout.carts.any (cartConflicts (newCart input s.db.nextUuid sessionId)) then
        .ok ⟨s.db.nextUuid, s.db.nextUuid + 1,
          s.bump.bump.withCart (newCart input s.db.nextUuid (s.db.nextUuid + 1))⟩
      else .ok ⟨s.db.nextUuid, sessionId, s.bump.withCart (newCart input s.db.nextUuid sessionId)⟩
    else .error (.database .foreignKey) := by
  have hfreshSession : s.db.checkout.carts.any
      (cartConflicts (newCart input s.db.nextUuid (s.db.nextUuid + 1))) = false := by
    rw [Bool.eq_false_iff, ne_eq, List.any_eq_true]
    rintro ⟨d, hd, hconflicts⟩
    rcases cartConflicts_iff.mp hconflicts with hid | ⟨-, hsession⟩
    · exact (hfresh d hd _ (Nat.le_refl _)).1 hid
    · exact (hfresh d hd (s.db.nextUuid + 1) (Nat.le_succ _)).2 hsession
  have hinsert : insertCart (newCart input s.db.nextUuid (s.db.nextUuid + 1)) s.bump.bump =
      appendCart (newCart input s.db.nextUuid (s.db.nextUuid + 1)) s.bump.bump := by
    unfold insertCart
    exact if_neg (by rw [Bool.not_eq_true]; exact hfreshSession)
  unfold openNewCart insertCartOrNothing
  cases hconflict : s.db.checkout.carts.any
      (cartConflicts (newCart input s.db.nextUuid sessionId)) with
  | true =>
    have hbump : s.bump.db.checkout.carts.any
      (cartConflicts (newCart input s.db.nextUuid sessionId)) = true := hconflict
    simp only [hbump, if_true]
    show ((insertCart (newCart input s.db.nextUuid (s.db.nextUuid + 1)) s.bump.bump).bind _) = _
    rw [hinsert, appendCart_eq]
    show (if (input.tenantId, input.customerId) ∈ s.customers then _ else _ :
      CartResult Shop).bind _ = _
    split
    · rfl
    · rfl
  | false =>
    have hbump : s.bump.db.checkout.carts.any
      (cartConflicts (newCart input s.db.nextUuid sessionId)) = false := hconflict
    simp only [hbump, Bool.false_eq_true, if_false, appendCart_eq]
    show (((if (input.tenantId, input.customerId) ∈ s.customers then _ else _ :
      CartResult Shop).bind _).bind _) = _
    split
    · rfl
    · rfl

/-- The state with a new cart, whatever was drawn before. -/
theorem opened_withCart (s' : Shop) (hfresh : s.Fresh) (hframe : Frame s s')
    (hcarts : s'.db.checkout.carts = s.db.checkout.carts) (hitems : s'.items = s.items)
    (hupdated : s'.updatedAt = s.updatedAt) (sessionId : SessionId) :
    Opened input s ⟨s.db.nextUuid, sessionId,
      s'.withCart (newCart input s.db.nextUuid sessionId)⟩ := by
  refine ⟨hframe.trans ⟨rfl, rfl, rfl, rfl⟩, ?_, ?_, hitems, ?_⟩
  · show s'.db.checkout.carts ++ _ = _
    rw [hcarts]
  · exact fun c hc => (hfresh c hc _ (Nat.le_refl _)).1
  · intro id hid
    show (if id = s.db.nextUuid then s'.db.now else s'.updatedAt id) = _
    rw [if_neg hid, hupdated]

/-- A request without a cart gets one, just if its customer is known. -/
theorem openNewCart_cases (hfresh : s.Fresh) :
    ((input.tenantId, input.customerId) ∈ s.customers ∧
      ∃ o, openNewCart input sessionId s = .ok o ∧ Opened input s o) ∨
    ((input.tenantId, input.customerId) ∉ s.customers ∧
      ∃ e, openNewCart input sessionId s = .error e) := by
  rw [openNewCart_eq hfresh]
  by_cases hcustomer : (input.tenantId, input.customerId) ∈ s.customers
  · rw [if_pos hcustomer]
    refine .inl ⟨hcustomer, ?_⟩
    split
    · exact ⟨_, rfl, opened_withCart s.bump.bump hfresh ⟨rfl, rfl, rfl, rfl⟩ rfl rfl rfl _⟩
    · exact ⟨_, rfl, opened_withCart s.bump hfresh ⟨rfl, rfl, rfl, rfl⟩ rfl rfl rfl _⟩
  · rw [if_neg hcustomer]
    exact .inr ⟨hcustomer, _, rfl⟩

end New

/-! ## `add_cart_item` -/

section Add

variable {input : AddCartItemInput} {s : Shop} {variantId : VariantId} {unitPrice : Int}

/-- The session of the request and the state in which it is known. -/
theorem resolveSession_spec (hfresh : s.Fresh) :
    Frame s (resolveSession input s).2 ∧
      (resolveSession input s).2.db.checkout = s.db.checkout ∧
      (resolveSession input s).2.items = s.items ∧
      (resolveSession input s).2.updatedAt = s.updatedAt ∧
      (resolveSession input s).2.Fresh ∧
      ∀ c ∈ s.db.checkout.carts, c.sessionId = some (resolveSession input s).1 ↔
        c.sessionId.isSome = true ∧ c.sessionId = input.sessionId := by
  unfold resolveSession
  cases hsession : input.sessionId with
  | some sessionId =>
    refine ⟨Frame.refl s, rfl, rfl, rfl, hfresh, fun c _ => ?_⟩
    constructor
    · intro h
      exact ⟨by rw [h]; rfl, h⟩
    · intro h
      exact h.2
  | none =>
    refine ⟨⟨rfl, rfl, rfl, rfl⟩, rfl, rfl, rfl, fun c hc n hn => hfresh c hc n ?_,
      fun c hc => ?_⟩
    · exact Nat.le_of_succ_le hn
    · constructor
      · intro h
        exact absurd h (hfresh c hc _ (Nat.le_refl _)).2
      · rintro ⟨hsome, hnone⟩
        rw [hnone] at hsome
        cases hsome

/-- After its checks the request is a cart, a look at it, and a line. -/
theorem addCartItem_ok_iff (hquantity : 0 < input.quantity)
    (hbound : input.quantity ≤ maxQuantity) {r : AddedCartItem × Shop} :
    addCartItem input s = .ok r ↔ ∃ o v s', openCart input (resolveSession input s).1
        (resolveSession input s).2 = .ok o ∧ checkOpenCart input o = .ok () ∧
      activePrice input o.shop = some v ∧ upsertLine input o.cartId v.1 v.2 o.shop = .ok s' ∧
      r = (⟨o.cartId, o.sessionId, input.sku, input.quantity, v.2⟩, s'.touch o.cartId) := by
  have hcheck : checkQuantity input = .ok () := by
    unfold checkQuantity expect
    rw [if_pos (decide_eq_true ⟨hquantity, hbound⟩)]
  unfold addCartItem
  rw [hcheck]
  show (openCart input (resolveSession input s).1 (resolveSession input s).2 >>= fun o =>
    checkOpenCart input o >>= fun _ => _) = .ok r ↔ _
  constructor
  · intro h
    obtain ⟨o, hopen, h⟩ := bind_ok h
    obtain ⟨u, hcheck, h⟩ := bind_ok h
    cases hprice : activePrice input o.shop with
    | none =>
      rw [hprice] at h
      cases h
    | some v =>
      rw [hprice] at h
      obtain ⟨s', hline, h⟩ := bind_ok h
      exact ⟨o, v, s', hopen, hcheck, hprice, hline, (Except.ok.inj h).symm⟩
  · rintro ⟨o, v, s', hopen, hcheck, hprice, hline, rfl⟩
    rw [bind_ok_iff]
    refine ⟨o, hopen, bind_ok_iff.mpr ⟨(), hcheck, ?_⟩⟩
    rw [hprice]
    exact bind_ok_iff.mpr ⟨s', hline, rfl⟩

theorem Shop.Constraints.validLines (hs : s.Constraints) : ValidLines s.items :=
  ⟨hs.lines, hs.checks⟩

theorem Shop.Constraints.resolved (hs : s.Constraints) :
    (resolveSession input s).2.Constraints := by
  unfold resolveSession
  split
  · exact hs
  · exact ⟨hs.cartIds, hs.sessions, hs.owners, hs.customers, hs.lines, hs.carts, hs.checks,
      hs.prices⟩

/-- The state in which the line is written. -/
def written (input : AddCartItemInput) (variantId : VariantId) (unitPrice : Int) (o : OpenCart) :
    Shop :=
  (o.shop.bump.setItems (grownItems input o.cartId variantId unitPrice o.shop)).touch o.cartId

/-- What is written is what was asked for. -/
theorem added_of_open {o : OpenCart} {c : Cart} (hlines : ValidLines s.items)
    (hframe : Frame s o.shop) (hc : c ∈ o.shop.db.checkout.carts)
    (hown : isCustomerCart input c = true) (hid : c.id = o.cartId)
    (hcarts : o.shop.db.checkout.carts = s.db.checkout.carts ∨
      o.shop.db.checkout.carts = s.db.checkout.carts ++ [c])
    (hitems : o.shop.items = s.items)
    (hupdated : ∀ id, id ≠ o.cartId → o.shop.updatedAt id = s.updatedAt id) :
    Added input variantId s (written input variantId unitPrice o) c := by
  have hlines : ValidLines o.shop.items := hitems ▸ hlines
  obtain ⟨hothers, hquantity, hunique⟩ :=
    @grownItems_spec input c.id variantId unitPrice o.shop hlines
  rw [hitems] at hothers hquantity
  unfold written
  rw [← hid]
  refine {
    frame := hframe.trans ⟨rfl, rfl, rfl, rfl⟩
    cart := hc
    own := hown
    carts := hcarts
    updatedAt := fun id hne => ?_
    others := hothers
    quantity := hquantity
    lines := hunique }
  show (if id = c.id then _ else o.shop.updatedAt id) = _
  rw [if_neg hne]
  exact hupdated id (hid ▸ hne)

theorem activePrice_nonneg (hs : s.Constraints)
    (h : activePrice input s = some (variantId, unitPrice)) : 0 ≤ unitPrice := by
  unfold activePrice at h
  split at h
  · cases h
  · obtain ⟨p, hp, heq⟩ := Option.map_eq_some_iff.mp h
    cases heq
    exact hs.prices p (List.mem_filter.mp (List.argmax_mem hp)).1

/-- Where a cart is open, the request commits just if the line fits. -/
theorem addCartItem_open (hs : s.Constraints) (hquantity : 0 < input.quantity)
    (hbound : input.quantity ≤ maxQuantity)
    (hprice : activePrice input s = some (variantId, unitPrice)) {o : OpenCart}
    (hopen : openCart input (resolveSession input s).1 (resolveSession input s).2 = .ok o)
    (hcheck : checkOpenCart input o = .ok ()) (hframe : Frame s o.shop)
    (hitems : o.shop.items = s.items)
    (hmax : lineQuantity s.items input.tenantId o.cartId variantId + input.quantity ≤
      (maxQuantity : Int)) {s' : Shop} :
    (∃ r, addCartItem input s = .ok (r, s')) ↔
      LineFits s input o.cartId variantId unitPrice ∧
        s' = written input variantId unitPrice o := by
  have hprice' := (activePrice_frame hframe input).trans hprice
  have hlines : ValidLines o.shop.items := hitems ▸ hs.validLines
  rw [← hitems] at hmax
  have hline : ∀ s'', upsertLine input o.cartId variantId unitPrice o.shop = .ok s'' ↔
      LineFits o.shop input o.cartId variantId unitPrice ∧
        s'' = o.shop.bump.setItems (grownItems input o.cartId variantId unitPrice o.shop) :=
    fun s'' => upsertLine_eq hlines hquantity (activePrice_nonneg hs hprice) hmax
  have hfits : LineFits o.shop input o.cartId variantId unitPrice ↔
      LineFits s input o.cartId variantId unitPrice := by
    unfold LineFits
    rw [hitems]
  simp only [addCartItem_ok_iff hquantity hbound]
  constructor
  · rintro ⟨r, o', v, s'', hopen', -, hprice'', hupsert, heq⟩
    rw [hopen] at hopen'
    cases hopen'
    rw [hprice'] at hprice''
    cases hprice''
    obtain ⟨hok, rfl⟩ := (hline s'').mp hupsert
    exact ⟨hfits.mp hok, congrArg Prod.snd heq⟩
  · rintro ⟨hok, rfl⟩
    exact ⟨_, o, (variantId, unitPrice), _, hopen, hcheck, hprice',
      (hline _).mpr ⟨hfits.mpr hok, rfl⟩, rfl⟩

/-- What the request is asked to do. -/
def Commits (input : AddCartItemInput) (s : Shop) (variantId : VariantId) : Prop :=
  ∃ r s' c, addCartItem input s = .ok (r, s') ∧ Added input variantId s s' c

theorem commits_open (hs : s.Constraints) (hquantity : 0 < input.quantity)
    (hbound : input.quantity ≤ maxQuantity)
    (hprice : activePrice input s = some (variantId, unitPrice)) {o : OpenCart} {c : Cart}
    (hopen : openCart input (resolveSession input s).1 (resolveSession input s).2 = .ok o)
    (hcheck : checkOpenCart input o = .ok ()) (hframe : Frame s o.shop)
    (hc : c ∈ o.shop.db.checkout.carts) (hown : isCustomerCart input c = true)
    (hid : c.id = o.cartId)
    (hcarts : o.shop.db.checkout.carts = s.db.checkout.carts ∨
      o.shop.db.checkout.carts = s.db.checkout.carts ++ [c])
    (hitems : o.shop.items = s.items)
    (hupdated : ∀ id, id ≠ o.cartId → o.shop.updatedAt id = s.updatedAt id)
    (hmax : lineQuantity s.items input.tenantId o.cartId variantId + input.quantity ≤
      (maxQuantity : Int)) :
    Commits input s variantId ↔ LineFits s input o.cartId variantId unitPrice := by
  have hiff : ∀ s', (∃ r, addCartItem input s = .ok (r, s')) ↔
      LineFits s input o.cartId variantId unitPrice ∧
        s' = written input variantId unitPrice o := fun s' =>
    addCartItem_open hs hquantity hbound hprice hopen hcheck hframe hitems hmax
  constructor
  · rintro ⟨r, s', -, hok, -⟩
    exact ((hiff s').mp ⟨r, hok⟩).1
  · intro hfits
    obtain ⟨r, hok⟩ := (hiff _).mpr ⟨hfits, rfl⟩
    exact ⟨r, _, c, hok,
      added_of_open hs.validLines hframe hc hown hid hcarts hitems hupdated⟩

/-- The session has an open cart of the customer's own. -/
theorem commits_session (hs : s.Constraints) (hfresh : s.Fresh) (hcart : input.cartId = none)
    (hquantity : 0 < input.quantity) (hbound : input.quantity ≤ maxQuantity)
    (hprice : activePrice input s = some (variantId, unitPrice)) {c : Cart}
    (hc : c ∈ s.db.checkout.carts) (hown : isCustomerCart input c = true)
    (hsession : c.sessionId.isSome = true ∧ c.sessionId = input.sessionId)
    (hmax : lineQuantity s.items input.tenantId c.id variantId + input.quantity ≤
      (maxQuantity : Int)) :
    Commits input s variantId ↔ LineFits s input c.id variantId unitPrice := by
  obtain ⟨hframe, hcheckout, hitems, hupdated, -, hsessions⟩ :=
    @resolveSession_spec input s hfresh
  have hmem : c ∈ (resolveSession input s).2.db.checkout.carts := by rw [hcheckout]; exact hc
  have hcsession := (hsessions c hc).mpr hsession
  have hexisting := existingCart_session hs.resolved hmem
    (isSessionCart_iff.mpr ⟨hown, hcsession⟩)
  have hopen : openCart input (resolveSession input s).1 (resolveSession input s).2 =
      .ok ⟨c.id, (resolveSession input s).1, (resolveSession input s).2⟩ := by
    unfold openCart
    rw [hcart, hexisting]
  refine commits_open hs hquantity hbound hprice hopen ?_ hframe hmem hown rfl
    (.inl (by rw [hcheckout])) hitems (fun id _ => by rw [hupdated]) hmax
  exact (checkOpenCart_iff hs.resolved.cartIds hmem rfl
    (isCustomerCart_iff.mp hown).1).mpr ⟨hown, hcsession⟩

/-- A cart of another session is found, and refused. -/
theorem commits_customer (hs : s.Constraints) (hfresh : s.Fresh) (hcart : input.cartId = none)
    (hquantity : 0 < input.quantity) (hbound : input.quantity ≤ maxQuantity)
    (hsession : ∀ c ∈ s.db.checkout.carts, isCustomerCart input c = true →
      ¬ (c.sessionId.isSome = true ∧ c.sessionId = input.sessionId)) {c : Cart}
    (hc : c ∈ s.db.checkout.carts) (hown : isCustomerCart input c = true) :
    ¬ Commits input s variantId := by
  obtain ⟨-, hcheckout, -, -, -, hsessions⟩ := @resolveSession_spec input s hfresh
  have hnone : ∀ d ∈ (resolveSession input s).2.db.checkout.carts,
      isSessionCart input (resolveSession input s).1 d = false := by
    rw [hcheckout]
    intro d hd
    rw [Bool.eq_false_iff]
    intro hd'
    obtain ⟨hdown, hdsession⟩ := isSessionCart_iff.mp hd'
    exact hsession d hd hdown ((hsessions d hd).mp hdsession)
  have hmem : c ∈ (resolveSession input s).2.db.checkout.carts := by rw [hcheckout]; exact hc
  obtain ⟨d, hd, hexisting, hdown, hdsession⟩ := existingCart_customer hnone hmem hown
  have hopen : openCart input (resolveSession input s).1 (resolveSession input s).2 =
      .ok ⟨d.id, (resolveSession input s).1, (resolveSession input s).2⟩ := by
    unfold openCart
    rw [hcart, hexisting]
  rintro ⟨r, s', c', hok, -⟩
  obtain ⟨o, v, s'', hopen', hcheck, -⟩ := (addCartItem_ok_iff hquantity hbound).mp hok
  rw [hopen] at hopen'
  cases hopen'
  exact hdsession ((checkOpenCart_iff hs.resolved.cartIds hd rfl
    (isCustomerCart_iff.mp hdown).1).mp hcheck).2

/-- The customer has no open cart in the currency. -/
theorem commits_new (hs : s.Constraints) (hfresh : s.Fresh) (hcart : input.cartId = none)
    (hquantity : 0 < input.quantity) (hbound : input.quantity ≤ maxQuantity)
    (hprice : activePrice input s = some (variantId, unitPrice))
    (hnone : ∀ c ∈ s.db.checkout.carts, isCustomerCart input c = false) :
    Commits input s variantId ↔ (input.tenantId, input.customerId) ∈ s.customers ∧
      input.quantity * unitPrice ≤ maxInteger := by
  obtain ⟨hframe, hcheckout, hitems, hupdated, hfresh', -⟩ :=
    @resolveSession_spec input s hfresh
  have hopenEq : openCart input (resolveSession input s).1 (resolveSession input s).2 =
      openNewCart input (resolveSession input s).1 (resolveSession input s).2 := by
    have hexisting : existingCart input (resolveSession input s).1 (resolveSession input s).2 =
        none := existingCart_none (by rw [hcheckout]; exact hnone)
    unfold openCart
    rw [hcart, hexisting]
  rcases @openNewCart_cases input (resolveSession input s).1 _ hfresh' with
    ⟨hknown, o, ho, hopened⟩ | ⟨hunknown, e, he⟩
  · rw [ho] at hopenEq
    rw [hframe.customers] at hknown
    have hcarts : o.shop.db.checkout.carts =
        s.db.checkout.carts ++ [newCart input o.cartId o.sessionId] := by
      rw [hopened.carts, hcheckout]
    have hids : ∀ c ∈ s.db.checkout.carts, c.id ≠ o.cartId := by
      intro c hc
      exact hopened.ids c (by rw [hcheckout]; exact hc)
    have hmem : newCart input o.cartId o.sessionId ∈ o.shop.db.checkout.carts := by
      rw [hcarts]
      exact List.mem_append_right _ List.mem_cons_self
    have hown : isCustomerCart input (newCart input o.cartId o.sessionId) = true :=
      isCustomerCart_iff.mpr ⟨rfl, rfl, rfl, rfl⟩
    have hunique : KeyUnique (·.id) o.shop.db.checkout.carts := by
      rw [hcarts]
      exact hs.cartIds.append_singleton hids
    have hempty : s.items.find? (isLine input.tenantId o.cartId variantId) = none := by
      refine List.find?_eq_none.mpr fun i hi hline => ?_
      obtain ⟨c, hc, -, hid⟩ := hs.carts i hi
      exact hids c hc (hid.trans (isLine_iff.mp hline).2.1)
    have hnonneg : 0 ≤ (input.quantity : Int) * unitPrice :=
      Int.mul_nonneg (by omega) (activePrice_nonneg hs hprice)
    rw [commits_open hs hquantity hbound hprice hopenEq
      ((checkOpenCart_iff hunique hmem rfl rfl).mpr ⟨hown, rfl⟩) (hframe.trans hopened.frame)
      hmem hown rfl (.inr hcarts) (hopened.items.trans hitems)
      (fun id hne => (hopened.updatedAt id hne).trans (by rw [hupdated]))
      (by simp only [lineQuantity, hempty]; simpa using hbound)]
    simp [LineFits, lineQuantity, lineDiscount, hempty, hknown, hnonneg]
  · rw [he] at hopenEq
    rw [hframe.customers] at hunknown
    constructor
    · rintro ⟨r, s', c', hok, -⟩
      obtain ⟨o, v, s'', hopen, -⟩ := (addCartItem_ok_iff hquantity hbound).mp hok
      rw [hopenEq] at hopen
      cases hopen
    · rintro ⟨hknown, -⟩
      exact absurd hknown hunknown

/-- A request without a cart id commits, and does what it was asked, exactly when its session
has an open cart of the customer's own in which the line fits, or the customer is known, has
no open cart in the currency and the line fits a new one. -/
theorem add_cart_item_commits_iff (hs : s.Constraints) (hfresh : s.Fresh)
    (hcart : input.cartId = none) (hquantity : 0 < input.quantity)
    (hbound : input.quantity ≤ maxQuantity)
    (hprice : activePrice input s = some (variantId, unitPrice))
    (hmax : ∀ c ∈ s.db.checkout.carts, isCustomerCart input c = true →
      c.sessionId = input.sessionId →
      lineQuantity s.items input.tenantId c.id variantId + input.quantity ≤ (maxQuantity : Int)) :
    Commits input s variantId ↔ Addable input s variantId unitPrice := by
  unfold Addable
  by_cases hsession : ∃ c ∈ s.db.checkout.carts, isCustomerCart input c = true ∧
      c.sessionId.isSome = true ∧ c.sessionId = input.sessionId
  · obtain ⟨c, hc, hown, hcsession⟩ := hsession
    rw [commits_session hs hfresh hcart hquantity hbound hprice hc hown hcsession
      (hmax c hc hown hcsession.2)]
    constructor
    · intro hfits
      exact .inl ⟨c, hc, hown, hcsession.1, hcsession.2, hfits⟩
    · rintro (⟨d, hd, hdown, hdsome, hdsession, hfits⟩ | ⟨hnone, -⟩)
      · have htenant : d.tenantId = c.tenantId :=
          (isCustomerCart_iff.mp hdown).1.trans (isCustomerCart_iff.mp hown).1.symm
        rw [hs.sessions c hc d hd htenant.symm (hcsession.2.trans hdsession.symm) hcsession.1]
        exact hfits
      · rw [hnone c hc] at hown
        cases hown
  · have hother : ∀ c ∈ s.db.checkout.carts, isCustomerCart input c = true →
        ¬ (c.sessionId.isSome = true ∧ c.sessionId = input.sessionId) :=
      fun c hc hown hcsession => hsession ⟨c, hc, hown, hcsession⟩
    by_cases hcustomer : ∃ c ∈ s.db.checkout.carts, isCustomerCart input c = true
    · obtain ⟨c, hc, hown⟩ := hcustomer
      constructor
      · intro hcommits
        exact absurd hcommits (commits_customer hs hfresh hcart hquantity hbound hother hc hown)
      · rintro (⟨d, hd, hdown, hdsome, hdsession, -⟩ | ⟨hnone, -⟩)
        · exact absurd ⟨hdsome, hdsession⟩ (hother d hd hdown)
        · rw [hnone c hc] at hown
          cases hown
    · have hnone : ∀ c ∈ s.db.checkout.carts, isCustomerCart input c = false := by
        intro c hc
        rw [Bool.eq_false_iff]
        exact fun hown => hcustomer ⟨c, hc, hown⟩
      rw [commits_new hs hfresh hcart hquantity hbound hprice hnone]
      constructor
      · intro h
        exact .inr ⟨hnone, h⟩
      · rintro (⟨d, hd, hdown, -⟩ | ⟨-, h⟩)
        · rw [hnone d hd] at hdown
          cases hdown
        · exact h

end Add

/-- A shop with one customer, whose cart was opened in the session 3, and one SKU. -/
def oneCart : Shop where
  db := {
    now := 10
    nextUuid := 100
    checkout := {
      attempts := []
      orders := []
      carts := [⟨1, 1, some 2, some 3, .active, 4⟩]
      promotions := []
      tasks := []
      reconciliations := []
      outbox := []
      exposures := []
      analytics := [] }
    payment := ⟨0, [], [], []⟩
    inventory := ⟨[⟨5, 1, 6, true, true⟩], [], [], []⟩ }
  customers := [(1, 2)]
  prices := [⟨1, 5, 4, 250, 0, none, true⟩]
  updatedAt := fun _ => 0
  items := []

theorem oneCart_constraints : oneCart.Constraints where
  cartIds := by simp [oneCart, KeyUnique]
  sessions := by simp [oneCart]
  owners := by simp [oneCart]
  customers := by simp [oneCart]
  lines := List.Pairwise.nil
  carts := fun i hi => absurd hi List.not_mem_nil
  checks := fun i hi => absurd hi List.not_mem_nil
  prices := by simp [oneCart]

theorem oneCart_fresh : oneCart.Fresh := by
  intro c hc n hn
  obtain rfl := List.mem_singleton.mp hc
  have hn : 100 ≤ n := hn
  constructor
  · show 1 ≠ n
    omega
  · show some 3 ≠ some n
    simp only [ne_eq, Option.some.injEq]
    omega

theorem add_cart_item_commits_iff_session :
    Commits ⟨1, 2, none, some 3, 6, 2, 4⟩ oneCart 5 := by
  have hiff : Commits ⟨1, 2, none, some 3, 6, 2, 4⟩ oneCart 5 ↔
      Addable ⟨1, 2, none, some 3, 6, 2, 4⟩ oneCart 5 250 := by
    refine add_cart_item_commits_iff oneCart_constraints oneCart_fresh rfl (by decide)
      (by decide) (by decide) fun c hc _ _ => ?_
    obtain rfl := List.mem_singleton.mp hc
    decide
  refine hiff.mpr (.inl ⟨_, List.mem_cons_self, by decide, rfl, rfl, ?_⟩)
  exact ⟨by decide, by decide⟩

/-- The customer's cart is found from a new session, and refused. -/
theorem add_cart_item_new_session :
    oneCart.Constraints ∧ oneCart.Fresh ∧
      activePrice ⟨1, 2, none, none, 6, 2, 4⟩ oneCart = some (5, 250) ∧
      addCartItem ⟨1, 2, none, none, 6, 2, 4⟩ oneCart =
        .error (.response 404 "cart_not_found" "cart was not found for this customer") :=
  ⟨oneCart_constraints, oneCart_fresh, by decide, rfl⟩

end CommercePlayground.Checkout
