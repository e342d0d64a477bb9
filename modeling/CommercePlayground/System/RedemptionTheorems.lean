/-
CommercePlayground.System.RedemptionTheorems — a promotion is redeemed once for every
order it was paid with.

`redemptions_counted`: at any time the promotions are those of the start, each with as
many redemptions more as there are paid orders of its tenant with its code, and a
promotion with a limit never gets past it. The count is compared with the orders
themselves, so a redemption is neither lost with a cancelled order nor made twice by a
reclaim or a worker that finalizes in a handler's place.
-/
import CommercePlayground.System.FinalizationTheorems
import CommercePlayground.Lib.Rows

namespace CommercePlayground.System

open Lib Checkout

/-! ## Redemptions -/

/-- A paid order with the code of a tenant. The empty code redeems nothing. -/
def redeems (tenantId : TenantId) (code : PromotionCode) (o : Order) : Bool :=
  decide (o.tenantId = tenantId ∧ o.promotionCode = some code ∧ code ≠ 0 ∧ o.status = .paid)

/-- How many paid orders have the code. -/
def redemptions (db : Db) (tenantId : TenantId) (code : PromotionCode) : Nat :=
  db.checkout.orders.countP (redeems tenantId code)

/-- A promotion of the start with the redemptions since. -/
def redeemedSince (db : Db) (p : Promotion) : Promotion :=
  { p with redemptionCount := p.redemptionCount + redemptions db p.tenantId p.code }

theorem redeems_iff {t : TenantId} {code : PromotionCode} {o : Order} :
    redeems t code o = true ↔
      o.tenantId = t ∧ o.promotionCode = some code ∧ code ≠ 0 ∧ o.status = .paid := by
  simp [redeems]

theorem redeems_pending {t : TenantId} {code : PromotionCode} {o : Order}
    (h : o.status = .pending) : redeems t code o = false := by
  simp [redeems, h]

/-- A step that finalizes nothing redeems nothing. -/
theorem Unfinalized.redemptions {db db' : Db} (h : Unfinalized db db')
    (hids : KeyUnique (·.id) db.checkout.orders) (hids' : KeyUnique (·.id) db'.checkout.orders)
    (t : TenantId) (code : PromotionCode) :
    System.redemptions db' t code = System.redemptions db t code :=
  countP_eq_of_mem hids' hids (fun o ho hr => h.paid o ho (redeems_iff.mp hr).2.2.2)
    fun o ho hr => h.kept o ho (redeems_iff.mp hr).2.2.2

/-- A finalization redeems the code of its order, once. -/
theorem Finalization.redemptions {o : Order} {db db' : Db} (h : Finalization o db db')
    (t : TenantId) (code : PromotionCode) :
    System.redemptions db' t code = System.redemptions db t code +
      if redeems t code { o with status := .paid } then 1 else 0 := by
  have hcount := h.order.countP (redeems t code)
  rw [redeems_pending h.pending] at hcount
  simpa [System.redemptions] using hcount

/-- The code of an order that redeems something. -/
theorem redeems_paid {t : TenantId} {code : PromotionCode} {o : Order} :
    redeems t code { o with status := .paid } = true ↔
      o.tenantId = t ∧ o.promotionCode = some code ∧ code ≠ 0 := by
  simp [redeems]

/-! ## Promotions -/

/-- The promotions, counted against the paid orders. -/
structure RedemptionInv (db₀ db : Db) : Prop where
  counted : db.checkout.promotions = db₀.checkout.promotions.map (redeemedSince db)
  limited : ∀ p ∈ db₀.checkout.promotions, ∀ m, p.maxRedemptions = some m →
    redemptions db p.tenantId p.code ≤ m - p.redemptionCount
  offered : ∀ o ∈ db.checkout.orders, o.status = .paid → ∀ code, o.promotionCode = some code →
    code ≠ 0 → ∃ p ∈ db₀.checkout.promotions, p.tenantId = o.tenantId ∧ p.code = code

theorem redeemedSince_congr {db db' : Db} {p : Promotion}
    (h : redemptions db' p.tenantId p.code = redemptions db p.tenantId p.code) :
    redeemedSince db' p = redeemedSince db p := by
  unfold redeemedSince
  rw [h]

/-- Promotions stay counted while the redemptions stay. -/
theorem RedemptionInv.congr {db₀ db db' : Db} (h : RedemptionInv db₀ db)
    (hpromotions : db'.checkout.promotions = db.checkout.promotions)
    (hsame : ∀ t code, redemptions db' t code = redemptions db t code)
    (hoffered : ∀ o ∈ db'.checkout.orders, o.status = .paid → ∀ code,
      o.promotionCode = some code → code ≠ 0 →
      ∃ p ∈ db₀.checkout.promotions, p.tenantId = o.tenantId ∧ p.code = code) :
    RedemptionInv db₀ db' where
  counted := by
    rw [hpromotions, h.counted]
    exact List.map_congr_left fun p _ => (redeemedSince_congr (hsame _ _)).symm
  limited := fun p hp m hm => by
    rw [hsame]
    exact h.limited p hp m hm
  offered := hoffered

theorem RedemptionInv.unfinalized {db₀ db db' : Db} (h : RedemptionInv db₀ db)
    (hu : Unfinalized db db') (hids : KeyUnique (·.id) db.checkout.orders)
    (hids' : KeyUnique (·.id) db'.checkout.orders) : RedemptionInv db₀ db' :=
  h.congr hu.promotions (hu.redemptions hids hids')
    fun o ho hpaid => h.offered o (hu.paid o ho hpaid) hpaid

/-- **One step of the promotions.** A finalized order either redeems nothing, or its
code's promotion, which had a redemption left. -/
theorem RedemptionInv.finalized {db₀ db db' : Db} {o : Order} (h : RedemptionInv db₀ db)
    (hkeys : KeyUnique (fun p => (p.tenantId, p.code)) db₀.checkout.promotions)
    (hf : Finalization o db db') : RedemptionInv db₀ db' := by
  -- the paid orders with a code are those before and the finalized one
  have hoffered : (∀ code, o.promotionCode = some code → code ≠ 0 →
      ∃ p ∈ db₀.checkout.promotions, p.tenantId = o.tenantId ∧ p.code = code) →
      ∀ x ∈ db'.checkout.orders, x.status = .paid → ∀ code, x.promotionCode = some code →
      code ≠ 0 → ∃ p ∈ db₀.checkout.promotions, p.tenantId = x.tenantId ∧ p.code = code := by
    intro hnew x hx hpaid
    by_cases hx' : x = { o with status := .paid }
    · subst hx'
      exact hnew
    · exact h.offered x (hf.order.old hx hx') hpaid
  by_cases hcode : ∃ code, o.promotionCode = some code ∧ code ≠ 0
  · obtain ⟨code, hcode, hne⟩ := hcode
    obtain ⟨p, htenant, hpcode, hlimit, hreplaces⟩ := hf.promotion code hcode hne
    rw [h.counted] at hreplaces
    have hother : ∀ q : Promotion, (q.tenantId, q.code) ≠ (o.tenantId, code) →
        redemptions db' q.tenantId q.code = redemptions db q.tenantId q.code := by
      intro q hq
      rw [hf.redemptions, if_neg, Nat.add_zero]
      intro hr
      obtain ⟨ht, hc, -⟩ := redeems_paid.mp hr
      rw [hcode] at hc
      exact hq (by rw [ht, Option.some.inj hc])
    have hone : redemptions db' o.tenantId code = redemptions db o.tenantId code + 1 := by
      rw [hf.redemptions, if_pos (redeems_paid.mpr ⟨rfl, hcode, hne⟩)]
    have hkey : ∀ q ∈ db₀.checkout.promotions, redeemedSince db q = p →
        q.tenantId = o.tenantId ∧ q.code = code := by
      rintro q - rfl
      exact ⟨htenant, hpcode⟩
    obtain ⟨q, hq, hqp⟩ := List.mem_map.mp hreplaces.mem.1
    obtain ⟨hqt, hqc⟩ := hkey q hq hqp
    refine ⟨hreplaces.of_map hkeys ?_ ?_, ?_, hoffered ?_⟩
    · intro q hq hqp
      obtain ⟨hqt, hqc⟩ := hkey q hq hqp
      subst hqp
      simp only [redeemedSince, hqt, hqc, hone, Nat.add_assoc]
    · intro q hq hqp x hx hne
      obtain ⟨hqt, hqc⟩ := hkey q hq hqp
      exact redeemedSince_congr (hother x (by rwa [← hqt, ← hqc]))
    · intro x hx m hm
      by_cases hxq : x = q
      · subst hxq
        have hleft : x.redemptionCount + redemptions db x.tenantId x.code + 1 ≤ m := by
          subst hqp
          exact hlimit m hm
        rw [hqt, hqc, hone]
        rw [hqt, hqc] at hleft
        omega
      · rw [hother x]
        · exact h.limited x hx m hm
        · intro heq
          exact hxq (hkeys.eq_of_mem hx hq (by rw [heq, hqt, hqc]))
    · intro code' hcode' _
      rw [hcode] at hcode'
      exact ⟨q, hq, hqt, hqc.trans (Option.some.inj hcode')⟩
  · have hnone : ∀ code, o.promotionCode = some code → code = 0 := fun code hc =>
      Classical.byContradiction fun hne => hcode ⟨code, hc, hne⟩
    refine h.congr (hf.unpromoted hnone) (fun t code => ?_)
      (hoffered fun code hc hne => absurd (hnone code hc) hne)
    rw [hf.redemptions, if_neg, Nat.add_zero]
    intro hr
    obtain ⟨-, hc, hne⟩ := redeems_paid.mp hr
    exact hne (hnone code hc)

/-! ## Runs -/

theorem redemptions_initial {s : State} (h : Initial s) (t : TenantId) (code : PromotionCode) :
    redemptions s.db t code = 0 := by
  simp [redemptions, h.orders]

theorem RedemptionInv.initial {s : State} (h : Initial s) : RedemptionInv s.db s.db where
  counted := by
    have hid : redeemedSince s.db = id := by
      funext p
      simp [redeemedSince, redemptions_initial h]
    rw [hid, List.map_id]
  limited := fun p _ m _ => by simp [redemptions_initial h]
  offered := by simp [h.orders]

/-- **Redemptions are counted.** However handlers, reclaims and workers interleave: the
promotions are those of the start, each with one redemption more for every paid order of
its tenant with its code; a promotion with a limit is not redeemed past it; and the code
of a paid order is that of a promotion of its tenant. -/
theorem redemptions_counted {s₀ s : State} (h0 : Initial s₀)
    (h : Reach System.step (fun _ _ => True) s₀ s) :
    s.db.checkout.promotions = s₀.db.checkout.promotions.map (redeemedSince s.db) ∧
    (∀ p ∈ s₀.db.checkout.promotions, ∀ m, p.maxRedemptions = some m →
      redemptions s.db p.tenantId p.code ≤ m - p.redemptionCount) ∧
    ∀ o ∈ s.db.checkout.orders, o.status = .paid → ∀ code, o.promotionCode = some code →
      code ≠ 0 → ∃ p ∈ s₀.db.checkout.promotions, p.tenantId = o.tenantId ∧ p.code = code := by
  have hinv := h.invariant (I := fun s => FinalInv s ∧ RedemptionInv s₀.db s.db)
    ⟨.initial h0, .initial h0⟩ fun s a u hs _ hstep => by
      obtain ⟨hu, hmove⟩ := hs.1.step hstep
      refine ⟨hu, ?_⟩
      rcases hmove with hun | ⟨o, hf⟩
      · exact hs.2.unfinalized hun hs.1.sys.db.orders hu.sys.db.orders
      · exact hs.2.finalized h0.promotions hf
  exact ⟨hinv.2.counted, hinv.2.limited, hinv.2.offered⟩

/-- The sample checkout takes the last redemption of the shop's promotion. -/
theorem redemptions_counted_sample : ∃ s : State,
    Reach System.step (fun _ _ => True) sampleShop s ∧
    s.db.checkout.promotions.map (·.redemptionCount) = [3] ∧ redemptions s.db 1 5 = 1 := by
  have hrun : (run System.step sampleShop sampleCheckout).map
      (fun s => s.db.checkout.promotions.map (·.redemptionCount)) = some [3] := by decide
  obtain ⟨s, hs, heq⟩ := Option.map_eq_some_iff.mp hrun
  refine ⟨s, reach_of_run hs, heq, ?_⟩
  rw [(redemptions_counted sampleShop_initial (reach_of_run hs)).1] at heq
  have hsum : 2 + redemptions s.db 1 5 = 3 := by
    simpa [sampleShop, redeemedSince] using heq
  omega

end CommercePlayground.System
