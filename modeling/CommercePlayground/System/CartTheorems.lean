/-
CommercePlayground.System.CartTheorems — a cart is sold once.

`carts_sold_once`: every order has the cart it was made from; the cart of a paid order is
checked out and that of no other paid order; and a cart that is checked out was so at the
start or has its paid order, and stays as it is. Two requests of one cart (a second tab, a
retry under a new request id) may both authorize and reserve, but one of them is paid.
-/
import CommercePlayground.System.FinalizationTheorems
import CommercePlayground.Checkout.OrderCartsTheorems

namespace CommercePlayground.System

open Lib Checkout

/-! ## What a step checks out -/

/-- Nothing is checked out. -/
def NothingSold (db db' : Db) : Prop :=
  ∀ c ∈ db'.checkout.carts, c.status = .checkedOut → c ∈ db.checkout.carts

theorem NothingSold.of_eq {db db' : Db} (h : db'.checkout.carts = db.checkout.carts) :
    NothingSold db db' := fun _ hc _ => h ▸ hc

theorem NothingSold.trans {a b c : Db} (h₁ : NothingSold a b) (h₂ : NothingSold b c) :
    NothingSold a c := fun x hx hs => h₁ x (h₂ x hx hs) hs

theorem Change.nothingSold {tx : Tx} {db db' : Db} (h : Change tx db db')
    (htx : ∀ order paymentId fence, tx ≠ .finalizeOrder order paymentId fence) :
    NothingSold db db' := by
  cases h with
  | cart =>
    unfold ensureCart
    split
    · exact .of_eq rfl
    · intro c hc hs
      rcases List.mem_append.mp hc with hc | hc
      · exact hc
      · -- a new cart is active
        rw [List.mem_singleton.mp hc] at hs
        cases hs
  | pay h => exact absurd h (htx _ _ _)
  | checkOut h => exact absurd h (htx _ _ _)
  | redeem h => exact absurd h (htx _ _ _)
  | openAttempt | reclaim | attempts | uuid | order | cancel | exposure | analytics | task
  | tasks | claimTask | reconciliation | reconciliations | claimReconciliation => exact .of_eq rfl

theorem Moved.nothingSold {db db' : Db} (hm : Moved db db') : NothingSold db db' ∨
    ∃ order paymentId, Finalizes order paymentId db db' := by
  rcases hm with rfl | ⟨a, -, hc⟩
  · exact .inl (.of_eq rfl)
  · cases hc with
    | @checkout tx r db' hr =>
      by_cases htx : ∃ order paymentId fence, tx = .finalizeOrder order paymentId fence
      · obtain ⟨order, paymentId, fence, rfl⟩ := htx
        exact .inr ⟨order, paymentId, finalizeOrder_ok hr⟩
      · refine .inl ((Tx.run_changes hr).invariant (I := NothingSold db) (.of_eq rfl) ?_)
        intro x y hx hstep
        exact hx.trans (Change.nothingSold hstep fun o p f heq => htx ⟨o, p, f, heq⟩)
    | inventory hK heff =>
      obtain ⟨hck, -⟩ := heff.frame
      exact .inl (.of_eq (by rw [hck]))
    | payment heff =>
      refine .inl (heff.invariant (I := NothingSold db) (.of_eq rfl) ?_)
      intro x y hx hstep
      obtain ⟨hck, -⟩ := PaymentEffect.frame hstep
      exact hx.trans (.of_eq (by rw [hck]))
    | decided hnow hi =>
      obtain ⟨rfl, -, -⟩ := PaymentStore.insertDecision_ok hi
      exact .inl (.of_eq rfl)
    | elapse => exact .inl (.of_eq rfl)

theorem Moved.carts {db db' : Db} (hm : Moved db db') (h : CartInv db) : CartInv db' := by
  rcases hm with rfl | ⟨a, -, hc⟩
  · exact h
  · exact h.committed hc

/-- A step that finalizes nothing checks nothing out. -/
theorem Unfinalized.nothingSold {db db' : Db} (h : Unfinalized db db') (hm : Moved db db')
    (hids : KeyUnique (·.id) db.checkout.orders) : NothingSold db db' := by
  rcases hm.nothingSold with hn | ⟨order, paymentId, hf⟩
  · exact hn
  · -- the order a finalization pays was not paid before
    obtain ⟨o, hsel, hpay⟩ := replaces_updateWhere
      (f := fun o => { o with status := OrderStatus.paid }) hf.one
    rw [← hf.orders] at hpay
    have hold := h.paid _ hpay.mem.2 rfl
    have heq := hids.eq_of_mem hpay.mem.1 hold rfl
    have hpending := isPendingOrder_status hsel
    rw [heq] at hpending
    cases hpending

/-! ## The invariant -/

/-- The cart a paid order was made from. -/
def SoldTo (db : Db) (c : Cart) (o : Order) : Prop :=
  o ∈ db.checkout.orders ∧ o.status = .paid ∧ o.tenantId = c.tenantId ∧ o.cartId = c.id

/-- The carts and the paid orders that have them. -/
structure CartSaleInv (db₀ db : Db) : Prop where
  carts : CartInv db
  settled : ∀ c ∈ db₀.checkout.carts, c.status ≠ .active → c ∈ db.checkout.carts
  sold : ∀ c ∈ db.checkout.carts, ∀ o, SoldTo db c o → c.status = .checkedOut
  once : ∀ c ∈ db.checkout.carts, ∀ o o', SoldTo db c o → SoldTo db c o' → o = o'
  buyer : ∀ c ∈ db.checkout.carts, c.status = .checkedOut →
    ((∃ o, SoldTo db c o) ↔ c ∉ db₀.checkout.carts)

theorem CartSaleInv.initial {s : State} (h : Initial s) : CartSaleInv s.db s.db where
  carts := ⟨h.carts, by simp [h.orders]⟩
  settled := fun _ hc _ => hc
  sold := fun _ _ _ ho => by simp [SoldTo, h.orders] at ho
  once := fun _ _ _ _ ho => by simp [SoldTo, h.orders] at ho
  buyer := fun _ hc _ => ⟨fun ⟨_, ho⟩ => by simp [SoldTo, h.orders] at ho, fun hn => absurd hc hn⟩

theorem CartSaleInv.unfinalized {db₀ db db' : Db} (h : CartSaleInv db₀ db)
    (hcarts : CartInv db') (hu : Unfinalized db db') (hn : NothingSold db db') :
    CartSaleInv db₀ db' := by
  have hback : ∀ {c o}, SoldTo db' c o → SoldTo db c o :=
    fun ⟨ho, hpaid, hkey⟩ => ⟨hu.paid _ ho hpaid, hpaid, hkey⟩
  have hforth : ∀ {c o}, SoldTo db c o → SoldTo db' c o :=
    fun ⟨ho, hpaid, hkey⟩ => ⟨hu.kept _ ho hpaid, hpaid, hkey⟩
  -- a cart that was sold is still the same row
  have hsold : ∀ c ∈ db'.checkout.carts, ∀ o, SoldTo db' c o → c ∈ db.checkout.carts := by
    intro c hc o ho
    obtain ⟨d, hd, hof⟩ := h.carts.orders o (hback ho).1
    have heq : d = c := hcarts.ids.eq_of_mem (hu.carts.subset hd) hc (hof.id.trans ho.2.2.2)
    exact heq ▸ hd
  refine ⟨hcarts, fun c hc hs => hu.carts.subset (h.settled c hc hs), ?_, ?_, ?_⟩
  · exact fun c hc o ho => h.sold c (hsold c hc o ho) o (hback ho)
  · exact fun c hc o o' ho ho' => h.once c (hsold c hc o ho) o o' (hback ho) (hback ho')
  · intro c hc hs
    rw [← h.buyer c (hn c hc hs) hs]
    exact ⟨fun ⟨o, ho⟩ => ⟨o, hback ho⟩, fun ⟨o, ho⟩ => ⟨o, hforth ho⟩⟩

/-- **One sale.** The cart of a finalized order was active, so it had no paid order before
and was not checked out at the start. -/
theorem CartSaleInv.finalized {db₀ db db' : Db} {o : Order} (h : CartSaleInv db₀ db)
    (hcarts : CartInv db') (hf : Finalization o db db') : CartSaleInv db₀ db' := by
  obtain ⟨c, htenant, hid, hactive, hsale⟩ := hf.cart
  have hnone : ∀ x, ¬ SoldTo db c x := by
    intro x hx
    have hs := h.sold c hsale.mem.1 x hx
    rw [hactive] at hs
    cases hs
  have hnew : SoldTo db' { c with status := .checkedOut } { o with status := .paid } :=
    ⟨hf.order.mem.2, rfl, htenant.symm, hid.symm⟩
  -- a paid order is the finalized one or an earlier one
  have hcase : ∀ {d x}, SoldTo db' d x → x = { o with status := .paid } ∨ SoldTo db d x := by
    rintro d x ⟨hx, hpaid, hkey⟩
    by_cases hxo : x = { o with status := .paid }
    · exact .inl hxo
    · exact .inr ⟨hf.order.old hx hxo, hpaid, hkey⟩
  -- the cart it was made from is the one checked out
  have hown : ∀ d ∈ db'.checkout.carts, SoldTo db' d { o with status := .paid } →
      d = { c with status := .checkedOut } := fun d hd hx =>
    hcarts.ids.eq_of_mem hd hsale.mem.2 (hx.2.2.2.symm.trans hid.symm)
  have hclear : ∀ x, ¬ SoldTo db { c with status := .checkedOut } x := fun x hx => hnone x hx
  have hold : ∀ d ∈ db'.checkout.carts, d ≠ { c with status := .checkedOut } →
      d ∈ db.checkout.carts := fun d hd hne => hsale.old hd hne
  refine ⟨hcarts, fun d hd hs => ?_, fun d hd x hx => ?_, fun d hd x y hx hy => ?_,
    fun d hd hs => ?_⟩
  · refine hsale.kept (h.settled d hd hs) fun heq => ?_
    exact hs (heq ▸ hactive)
  · by_cases hdc : d = { c with status := .checkedOut }
    · rw [hdc]
    · rcases hcase hx with rfl | hx
      · rw [hown d hd hx]
      · exact h.sold d (hold d hd hdc) x hx
  · by_cases hdc : d = { c with status := .checkedOut }
    · subst hdc
      rcases hcase hx with rfl | hx
      · rcases hcase hy with rfl | hy
        · rfl
        · exact absurd hy (hclear y)
      · exact absurd hx (hclear x)
    · rcases hcase hx with rfl | hx'
      · exact absurd (hown d hd hx) hdc
      · rcases hcase hy with rfl | hy'
        · exact absurd (hown d hd hy) hdc
        · exact h.once d (hold d hd hdc) x y hx' hy'
  · by_cases hdc : d = { c with status := .checkedOut }
    · subst hdc
      refine ⟨fun _ hd₀ => ?_, fun _ => ⟨_, hnew⟩⟩
      -- at the start it was not checked out, or it would be still the same row
      have hkept := h.settled _ hd₀ (by simp)
      have heq := h.carts.ids.eq_of_mem hkept hsale.mem.1 rfl
      rw [← heq] at hactive
      cases hactive
    · rw [← h.buyer d (hold d hd hdc) hs]
      refine ⟨fun ⟨x, hx⟩ => ?_, fun ⟨x, hx, hpaid, hkey⟩ => ⟨x, hf.kept hx hpaid, hpaid, hkey⟩⟩
      rcases hcase hx with rfl | hx'
      · exact absurd (hown d hd hx) hdc
      · exact ⟨x, hx'⟩

/-! ## Runs -/

/-- What holds of a state with respect to the start. -/
structure CartRun (s₀ s : State) : Prop where
  final : FinalInv s
  sale : CartSaleInv s₀.db s.db

theorem CartRun.step {s₀ s u : State} {a : Action} (h : CartRun s₀ s)
    (hs : System.step s a = some u) : CartRun s₀ u := by
  obtain ⟨hu, hmove⟩ := h.final.step hs
  obtain ⟨-, hm⟩ := h.final.sys.step hs
  have hcarts := hm.carts h.sale.carts
  rcases hmove with hun | ⟨o, hf⟩
  · exact ⟨hu, h.sale.unfinalized hcarts hun (hun.nothingSold hm h.final.sys.db.orders)⟩
  · exact ⟨hu, h.sale.finalized hcarts hf⟩

theorem CartRun.reach {s₀ s : State} (h0 : Initial s₀)
    (h : Reach System.step (fun _ _ => True) s₀ s) : CartRun s₀ s :=
  h.invariant (I := CartRun s₀) ⟨.initial h0, .initial h0⟩ fun _ _ _ ht _ hs => ht.step hs

/-- A cart that is not active is never written again. -/
theorem FinalInv.cart_kept {s u : State} {ok : State → Action → Prop} (h : FinalInv s)
    (hr : Reach System.step ok s u) :
    ∀ c ∈ s.db.checkout.carts, c.status ≠ .active → c ∈ u.db.checkout.carts := by
  refine hr.relates (R := fun s u : State => ∀ c ∈ s.db.checkout.carts, c.status ≠ .active →
    c ∈ u.db.checkout.carts) h (fun _ _ _ ht _ hs => (ht.step hs).1) (fun _ _ hc _ => hc)
    (fun _ _ _ h₁ h₂ c hc hs => h₂ c (h₁ c hc hs) hs) fun t a v ht _ hs c hc hstatus => ?_
  rcases (ht.step hs).2 with hu | ⟨o, hf⟩
  · exact hu.carts.subset hc
  · obtain ⟨d, -, -, hactive, hsale⟩ := hf.cart
    exact hsale.kept hc fun heq => hstatus (heq ▸ hactive)

/-- **A cart is sold once.** However the requests of its session interleave: every order
has the cart it was made from, of its customer and in its currency; the cart of a paid
order is checked out, and two paid orders are of different carts; a cart that is checked
out has a paid order if and only if it was not so at the start; and it stays so. -/
theorem carts_sold_once {s₀ s : State} (h0 : Initial s₀)
    (h : Reach System.step (fun _ _ => True) s₀ s) :
    (∀ o ∈ s.db.checkout.orders, ∃ c ∈ s.db.checkout.carts, IsCartOf o c ∧
      (o.status = .paid → c.status = .checkedOut)) ∧
    (∀ o ∈ s.db.checkout.orders, ∀ o' ∈ s.db.checkout.orders, o.status = .paid →
      o'.status = .paid → o.tenantId = o'.tenantId → o.cartId = o'.cartId → o = o') ∧
    (∀ c ∈ s.db.checkout.carts, c.status = .checkedOut →
      ((∃ o, SoldTo s.db c o) ↔ c ∉ s₀.db.checkout.carts)) ∧
    ∀ u, Reach System.step (fun _ _ => True) s u →
      ∀ c ∈ s.db.checkout.carts, c.status = .checkedOut → c ∈ u.db.checkout.carts := by
  obtain ⟨hfinal, hsale⟩ := CartRun.reach h0 h
  refine ⟨fun o ho => ?_, fun o ho o' ho' hp hp' ht hc => ?_, hsale.buyer,
    fun u hu c hc hs => hfinal.cart_kept hu c hc (by simp [hs])⟩
  · obtain ⟨c, hc, hof⟩ := hsale.carts.orders o ho
    exact ⟨c, hc, hof, fun hp =>
      hsale.sold c hc o ⟨ho, hp, hof.tenant.symm, hof.id.symm⟩⟩
  · obtain ⟨c, hcart, hof⟩ := hsale.carts.orders o ho
    exact hsale.once c hcart o o' ⟨ho, hp, hof.tenant.symm, hof.id.symm⟩
      ⟨ho', hp', ht.symm.trans hof.tenant.symm, hc.symm.trans hof.id.symm⟩

/-- The sample checkout sells the cart it opened. -/
theorem carts_sold_once_sample : ∃ s : State,
    Reach System.step (fun _ _ => True) sampleShop s ∧
    ∃ c ∈ s.db.checkout.carts, c.status = .checkedOut ∧ ∃ o, SoldTo s.db c o := by
  have hrun : (run System.step sampleShop sampleCheckout).map
      (fun s => s.db.checkout.carts.map (·.status)) = some [.checkedOut] := by decide
  obtain ⟨s, hs, heq⟩ := Option.map_eq_some_iff.mp hrun
  obtain ⟨c, hc, hstatus⟩ := List.mem_map.mp (heq ▸ List.mem_singleton_self _)
  refine ⟨s, reach_of_run hs, c, hc, hstatus, ?_⟩
  exact ((carts_sold_once sampleShop_initial (reach_of_run hs)).2.2.1 c hc hstatus).mpr nofun

end CommercePlayground.System
