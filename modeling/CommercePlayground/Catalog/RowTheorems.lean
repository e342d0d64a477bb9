/-
CommercePlayground.Catalog.RowTheorems — the rows of concurrent price updates.

What a transaction has closed and added, in whatever order the transactions run: the ids
that its UPDATE found are those of the default rows of its variant until it commits, and
the row it adds has an id of its own (`RowInv`).
-/
import CommercePlayground.Catalog.PriceTheorems

namespace CommercePlayground.Catalog

open Lib

/-! ## Keys -/

/-- What a price is for. -/
def Price.key (p : Price) : Text × Text × Text := (p.tenantId, p.variantId, p.currency)

def Transaction.key (tx : Transaction) (v : Variant) : Text × Text × Text :=
  (tx.command.tenantId, v.id, tx.command.currency)

theorem replaces_iff {tx : Transaction} {v : Variant} {p : Price} :
    tx.replaces v p = true ↔ p.key = tx.key v ∧ p.isDefault = true := by
  simp [Transaction.replaces, Price.isOf, Price.key, Transaction.key]

/-- A row after a commit: the new one, one that was closed, or one that was not. -/
theorem mem_committedPrices {tx : Transaction} {ids : List Nat} {new : Price}
    {prices : List Price} {q : Price} (h : q ∈ committedPrices tx ids new prices) :
    q = new ∨ (∃ p ∈ prices, p.id ∈ ids ∧ q = p.expire tx.startedAt) ∨
      (q ∈ prices ∧ q.id ∉ ids) := by
  rcases List.mem_append.mp h with h | h
  · obtain ⟨p, hp, rfl⟩ := mem_updateWhere.mp h
    by_cases hid : p.id ∈ ids
    · exact .inr (.inl ⟨p, hp, hid, by simp [hid]⟩)
    · refine .inr (.inr ?_)
      simp [hid, hp]
  · exact .inl (List.mem_singleton.mp h)

theorem kept_mem {tx : Transaction} {ids : List Nat} {new : Price} {prices : List Price}
    {p : Price} (hp : p ∈ prices) (hid : p.id ∉ ids) : p ∈ committedPrices tx ids new prices :=
  List.mem_append_left _ (mem_updateWhere_of_not hp (by simp [hid]))

theorem new_mem (tx : Transaction) (ids : List Nat) (new : Price) (prices : List Price) :
    new ∈ committedPrices tx ids new prices :=
  List.mem_append_right _ (List.mem_singleton_self new)

/-! ## Transactions under way -/

/-- The rows a transaction has closed, and the row it has added. -/
def Phase.closed? : Phase → Option (Variant × List Nat)
  | .expired v ids => some (v, ids)
  | .inserted v ids _ => some (v, ids)
  | .recorded v ids _ _ => some (v, ids)
  | _ => none

def Phase.added? : Phase → Option (Variant × Price)
  | .inserted v _ price => some (v, price)
  | .recorded v _ price _ => some (v, price)
  | _ => none

/-- The event it has written. -/
def Phase.event? : Phase → Option (Variant × Price × PriceChangeEvent)
  | .recorded v _ price event => some (v, price, event)
  | _ => none

theorem Phase.variant?_of_closed {phase : Phase} {v : Variant} {ids : List Nat}
    (h : phase.closed? = some (v, ids)) : phase.variant? = some v := by
  cases phase <;> cases h <;> rfl

theorem Phase.variant?_of_added {phase : Phase} {v : Variant} {price : Price}
    (h : phase.added? = some (v, price)) : phase.variant? = some v := by
  cases phase <;> cases h <;> rfl

theorem Phase.variant?_of_event {phase : Phase} {v : Variant} {price : Price}
    {e : PriceChangeEvent} (h : phase.event? = some (v, price, e)) : phase.variant? = some v := by
  cases phase <;> cases h
  rfl

theorem findVariant_ok {db : Database} {c : PriceUpdateCommand} {v : Variant}
    (h : findVariant db c = .ok v) : v.tenantId = c.tenantId ∧ v.sku = c.sku := by
  unfold findVariant at h
  split at h
  · cases h
  · split at h
    · cases h
    · split at h
      · cases h
      · rename_i w hw
        cases h
        exact of_decide_eq_true (find?_some_spec hw).2

theorem mem_of_findVariant {db : Database} {c : PriceUpdateCommand} {v : Variant}
    (h : findVariant db c = .ok v) : v ∈ db.variants := by
  unfold findVariant at h
  split at h
  · cases h
  · split at h
    · cases h
    · split at h
      · cases h
      · rename_i w hw
        cases h
        exact (find?_some_spec hw).1

/-- What the phase of a transaction says about the rows. -/
structure TxRows (db : Database) (tx : Transaction) : Prop where
  closed : ∀ v ids, tx.phase.closed? = some (v, ids) →
    ∀ p ∈ db.prices, p.id ∈ ids ↔ tx.replaces v p = true
  rows : ∀ v ids, tx.phase.closed? = some (v, ids) → ∀ id ∈ ids, ∃ p ∈ db.prices, p.id = id
  added : ∀ v price, tx.phase.added? = some (v, price) →
    price = tx.newPrice v price.id ∧ price.id < db.nextPrice ∧ ∀ p ∈ db.prices, p.id ≠ price.id
  event : ∀ v price e, tx.phase.event? = some (v, price, e) →
    e = tx.newEvent v price e.sequence

structure RowInv (db : Database) : Prop where
  ids : KeyUnique Price.id db.prices
  next : ∀ p ∈ db.prices, p.id < db.nextPrice
  transactions : ∀ (i : Nat) (tx : Transaction), db.transactions[i]? = some tx → TxRows db tx
  /-- Rows added by different transactions have different ids. -/
  distinct : ∀ (i j : Nat) (tx tx' : Transaction) (v w : Variant) (p q : Price),
    db.transactions[i]? = some tx → db.transactions[j]? = some tx' →
    tx.phase.added? = some (v, p) → tx'.phase.added? = some (w, q) → p.id = q.id → i = j

/-- A step that leaves the prices alone says nothing new about a transaction. -/
theorem TxRows.frame {db u : Database} {tx : Transaction} (h : TxRows db tx)
    (hprices : u.prices = db.prices) (hnext : db.nextPrice ≤ u.nextPrice) : TxRows u tx := by
  refine ⟨?_, ?_, fun v price hadded => ?_, h.event⟩
  · rw [hprices]
    exact h.closed
  · rw [hprices]
    exact h.rows
  · obtain ⟨hprice, hid, hfresh⟩ := h.added v price hadded
    rw [hprices]
    exact ⟨hprice, hid.trans_le hnext, hfresh⟩

/-- A transaction that holds no row. -/
theorem TxRows.idle {db : Database} {tx : Transaction} (hv : tx.phase.variant? = none) :
    TxRows db tx := by
  have hnone : ∀ v, tx.phase.variant? ≠ some v := by
    intro v hsome
    rw [hv] at hsome
    cases hsome
  constructor
  · intro v ids hclosed
    exact absurd (Phase.variant?_of_closed hclosed) (hnone v)
  · intro v ids hclosed
    exact absurd (Phase.variant?_of_closed hclosed) (hnone v)
  · intro v price hadded
    exact absurd (Phase.variant?_of_added hadded) (hnone v)
  · intro v price e hevent
    exact absurd (Phase.variant?_of_event hevent) (hnone v)

/-- What is known of the transaction that has acted. -/
theorem RowInv.acting {db u : Database} {i : Nat} {tx : Transaction} {phase : Phase}
    (h : RowInv u) (hi : db.transactions[i]? = some tx)
    (htransactions : u.transactions = (setPhase db i tx phase).transactions) :
    TxRows u { tx with phase := phase } := by
  refine h.transactions i _ ?_
  rw [htransactions, getElem?_setPhase phase hi, if_pos rfl]

/-- One transaction moves on, the tables stay: it is enough to look at it. -/
theorem RowInv.setPhase {db u : Database} {i : Nat} {tx : Transaction} {phase : Phase}
    (h : RowInv db) (hi : db.transactions[i]? = some tx)
    (htransactions : u.transactions = (setPhase db i tx phase).transactions)
    (hprices : u.prices = db.prices) (hnext : db.nextPrice ≤ u.nextPrice)
    (hnew : TxRows u { tx with phase := phase })
    (hadded : ∀ v p, phase.added? = some (v, p) →
      tx.phase.added? = some (v, p) ∨ db.nextPrice ≤ p.id) : RowInv u := by
  -- the id of the row that the acting transaction has added is its own
  have hown : ∀ (j : Nat) (tx' : Transaction) (v w : Variant) (p q : Price),
      db.transactions[j]? = some tx' → phase.added? = some (v, p) →
      tx'.phase.added? = some (w, q) → p.id = q.id → i = j := by
    intro j tx' v w p q hj hp hq hid
    rcases hadded v p hp with hp | hfresh
    · exact h.distinct i j tx tx' v w p q hi hj hp hq hid
    · have := ((h.transactions j tx' hj).added w q hq).2.1
      omega
  constructor
  · rw [hprices]
    exact h.ids
  · intro p hp
    rw [hprices] at hp
    exact (h.next p hp).trans_le hnext
  · intro j tx' hj
    rw [htransactions] at hj
    rcases setPhase_cases hi hj with ⟨rfl, rfl⟩ | ⟨-, hj'⟩
    · exact hnew
    · exact (h.transactions j tx' hj').frame hprices hnext
  · intro j k tx₁ tx₂ v w p q hj hk hp hq hid
    rw [htransactions] at hj hk
    rcases setPhase_cases hi hj with ⟨rfl, rfl⟩ | ⟨-, hj'⟩
    · rcases setPhase_cases hi hk with ⟨rfl, rfl⟩ | ⟨-, hk'⟩
      · rfl
      · exact hown k tx₂ v w p q hk' hp hq hid
    · rcases setPhase_cases hi hk with ⟨rfl, rfl⟩ | ⟨-, hk'⟩
      · exact (hown j tx₁ w v q p hj' hq hp hid.symm).symm
      · exact h.distinct j k tx₁ tx₂ v w p q hj' hk' hp hq hid

/-! ## Commits -/

section Commit

variable {db : Database} {i : Nat} {tx : Transaction} {v : Variant} {ids : List Nat}
  {price : Price} {event : PriceChangeEvent}

/-- The default rows of a transaction that holds another row are not touched. -/
theorem RowInv.untouched (h : RowInv db) (hl : Locks db)
    (hi : db.transactions[i]? = some tx) (hphase : tx.phase = .recorded v ids price event)
    {j : Nat} {tx' : Transaction} {w : Variant} (hj : db.transactions[j]? = some tx')
    (hij : j ≠ i) (hw : tx'.phase.variant? = some w) :
    tx'.key w ≠ tx.key v ∧ ∀ q ∈ committedPrices tx ids price db.prices,
      tx'.replaces w q = true → q ∈ db.prices ∧ q.id ∉ ids := by
  have hv : tx.phase.variant? = some v := by
    rw [hphase]
    rfl
  obtain ⟨hprice, -⟩ := (h.transactions i tx hi).added v price (by rw [hphase]; rfl)
  have hpricekey : price.key = tx.key v := by
    rw [hprice]
    rfl
  -- two transactions that hold rows hold different ones
  have hkeys : tx'.key w ≠ tx.key v := by
    intro hsame
    have hfound := findVariant_ok (hl.found i tx v hi hv)
    have hfound' := findVariant_ok (hl.found j tx' w hj hw)
    simp only [Transaction.key, Prod.mk.injEq] at hsame
    have hrow : w.sameRow v = true :=
      sameRow_iff.mpr ⟨by rw [hfound'.1, hfound.1, hsame.1], hsame.2.1⟩
    exact hij (hl.exclusive j i tx' tx w v hj hi hw hv hrow)
  refine ⟨hkeys, fun q hq hrep => ?_⟩
  rcases mem_committedPrices hq with rfl | ⟨p, hp, hid, rfl⟩ | ⟨hp, hid⟩
  · exact absurd ((replaces_iff.mp hrep).1.symm.trans hpricekey) hkeys
  · cases (replaces_iff.mp hrep).2
  · exact ⟨hp, hid⟩

/-- What is known of the other transactions is still true after a commit. -/
theorem TxRows.commit (h : RowInv db) (hl : Locks db) (hi : db.transactions[i]? = some tx)
    (hphase : tx.phase = .recorded v ids price event) {j : Nat} {tx' : Transaction}
    (hj : db.transactions[j]? = some tx') (hij : j ≠ i) :
    TxRows (Catalog.commit db i tx ids price event) tx' := by
  have hok := h.transactions i tx hi
  have hok' := h.transactions j tx' hj
  have hids := hok.closed v ids (by rw [hphase]; rfl)
  obtain ⟨-, -, hfresh⟩ := hok.added v price (by rw [hphase]; rfl)
  constructor
  · intro w ids' hclosed q hq
    have hw := Phase.variant?_of_closed hclosed
    obtain ⟨hkeys, hreplaces⟩ := h.untouched hl hi hphase hj hij hw
    constructor
    · intro hid'
      rcases mem_committedPrices hq with rfl | ⟨p, hp, hid, rfl⟩ | ⟨hp, hid⟩
      · -- an id that the UPDATE found is not that of a row added since
        obtain ⟨p, hp, hsame⟩ := hok'.rows w ids' hclosed q.id hid'
        exact absurd hsame (hfresh p hp)
      · have hrep := (hok'.closed w ids' hclosed p hp).mp hid'
        have hrep' := (hids p hp).mp hid
        exact absurd ((replaces_iff.mp hrep).1.symm.trans (replaces_iff.mp hrep').1) hkeys
      · exact (hok'.closed w ids' hclosed q hp).mp hid'
    · intro hrep
      exact (hok'.closed w ids' hclosed q (hreplaces q hq hrep).1).mpr hrep
  · intro w ids' hclosed id hid'
    obtain ⟨p, hp, rfl⟩ := hok'.rows w ids' hclosed id hid'
    by_cases hid : p.id ∈ ids
    · exact ⟨_, List.mem_append_left _ (mem_updateWhere_of_pos hp (by simp [hid])), rfl⟩
    · exact ⟨p, kept_mem hp hid, rfl⟩
  · intro w price' hadded
    obtain ⟨hprice', hlt', hfresh'⟩ := hok'.added w price' hadded
    refine ⟨hprice', hlt', fun q hq => ?_⟩
    rcases mem_committedPrices hq with rfl | ⟨p, hp, hid, rfl⟩ | ⟨hp, hid⟩
    · intro hsame
      exact hij (h.distinct j i tx' tx w v price' q hj hi hadded (by rw [hphase]; rfl) hsame.symm)
    · exact hfresh' p hp
    · exact hfresh' q hp
  · exact hok'.event

theorem RowInv.commit (h : RowInv db) (hl : Locks db) (hi : db.transactions[i]? = some tx)
    (hphase : tx.phase = .recorded v ids price event) :
    RowInv (Catalog.commit db i tx ids price event) := by
  obtain ⟨hprice, hlt, hfresh⟩ :=
    (h.transactions i tx hi).added v price (by rw [hphase]; rfl)
  constructor
  · refine KeyUnique.append_singleton (h.ids.updateWhere fun _ _ _ => rfl) fun s hs => ?_
    obtain ⟨p, hp, rfl⟩ := mem_updateWhere.mp hs
    split
    · exact hfresh p hp
    · exact hfresh p hp
  · intro q hq
    rcases mem_committedPrices hq with rfl | ⟨p, hp, hid, rfl⟩ | ⟨hp, hid⟩
    · exact hlt
    · exact h.next p hp
    · exact h.next q hp
  · intro j tx' hj
    rcases setPhase_cases hi hj with ⟨rfl, rfl⟩ | ⟨hji, hj'⟩
    · exact .idle rfl
    · exact TxRows.commit h hl hi hphase hj' hji
  · intro j k tx₁ tx₂ w w' p q hj hk hp hq hid
    rcases setPhase_cases hi hj with ⟨rfl, rfl⟩ | ⟨-, hj'⟩
    · cases hp
    · rcases setPhase_cases hi hk with ⟨rfl, rfl⟩ | ⟨-, hk'⟩
      · cases hq
      · exact h.distinct j k tx₁ tx₂ w w' p q hj' hk' hp hq hid

end Commit

/-- Every step keeps the rows apart. -/
theorem RowInv.step {db u : Database} {a : Action} (h : RowInv db) (hl : Locks db)
    (hm : Move db a u) : RowInv u := by
  cases hm with
  | begin haccepted =>
    refine ⟨h.ids, h.next, fun i tx hi => ?_, ?_⟩
    · rcases begin_cases hi with rfl | hi
      · exact .idle rfl
      · exact (h.transactions i tx hi).frame rfl le_rfl
    · intro i j tx tx' v w p q hi hj hp hq hid
      rcases begin_cases hi with rfl | hi
      · cases hp
      · rcases begin_cases hj with rfl | hj
        · cases hq
        · exact h.distinct i j tx tx' v w p q hi hj hp hq hid
  | elapse n =>
    exact ⟨h.ids, h.next, fun i tx hi => (h.transactions i tx hi).frame rfl le_rfl, h.distinct⟩
  | reject hi => exact h.setPhase hi rfl rfl le_rfl (.idle rfl) fun v p hp => by cases hp
  | lock hi =>
    refine h.setPhase hi rfl rfl le_rfl ⟨?_, ?_, ?_, ?_⟩ fun v p hp => by cases hp
    · exact fun v ids hv => by cases hv
    · exact fun v ids hv => by cases hv
    · exact fun v p hv => by cases hv
    · exact fun v p e hv => by cases hv
  | @expire i tx v hi hphase =>
    refine h.setPhase hi rfl rfl le_rfl ⟨fun w ids hw => ?_, fun w ids hw => ?_,
      (fun v p hv => by cases hv), (fun v p e hv => by cases hv)⟩ fun v p hp => by cases hp
    · cases hw
      intro p hp
      constructor
      · intro hid
        obtain ⟨q, hq, hsame⟩ := List.mem_map.mp hid
        obtain ⟨hq, hrep⟩ := List.mem_filter.mp hq
        rw [← h.ids.eq_of_mem hq hp hsame]
        exact hrep
      · intro hrep
        exact List.mem_map_of_mem (List.mem_filter.mpr ⟨hp, hrep⟩)
    · cases hw
      intro id hid
      obtain ⟨q, hq, hsame⟩ := List.mem_map.mp hid
      exact ⟨q, (List.mem_filter.mp hq).1, hsame⟩
  | @insert i tx v ids hi hphase =>
    have htx := h.transactions i tx hi
    have hclosed : tx.phase.closed? = some (v, ids) := by
      rw [hphase]
      rfl
    refine h.setPhase hi rfl rfl (Nat.le_succ _) ⟨fun w ids' hw => ?_, fun w ids' hw => ?_,
      fun w p hw => ?_, (fun v p e hv => by cases hv)⟩ fun w p hp => ?_
    · cases hw
      exact htx.closed v ids hclosed
    · cases hw
      exact htx.rows v ids hclosed
    · cases hw
      exact ⟨rfl, Nat.lt_succ_self _, fun p hp => (h.next p hp).ne⟩
    · cases hp
      exact .inr le_rfl
  | @record i tx v ids price hi hphase =>
    have htx := h.transactions i tx hi
    have hclosed : tx.phase.closed? = some (v, ids) := by
      rw [hphase]
      rfl
    have hadded : tx.phase.added? = some (v, price) := by
      rw [hphase]
      rfl
    refine h.setPhase hi rfl rfl le_rfl ⟨fun w ids' hw => ?_, fun w ids' hw => ?_,
      fun w p hw => ?_, fun w p e hw => ?_⟩ fun w p hp => ?_
    · cases hw
      exact htx.closed v ids hclosed
    · cases hw
      exact htx.rows v ids hclosed
    · cases hw
      exact htx.added v price hadded
    · cases hw
      rfl
    · cases hp
      exact .inl hadded
  | violate hi => exact h.setPhase hi rfl rfl le_rfl (.idle rfl) fun v p hp => by cases hp
  | commit hi hphase => exact h.commit hl hi hphase

end CommercePlayground.Catalog
