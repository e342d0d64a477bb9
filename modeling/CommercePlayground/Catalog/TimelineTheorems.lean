/-
CommercePlayground.Catalog.TimelineTheorems — one price timeline for each variant.

`Timeline` is what the rows of `prices` should look like. A commit keeps it if the
rows it closes are the default rows of its variant and began before it: the lock
gives the first, the order of the start times the second.
-/
import CommercePlayground.Catalog.RowTheorems

namespace CommercePlayground.Catalog

open Lib

/-! ## Timelines -/

/-- For each variant and currency one default price without an end, and before it the
former prices, one after another. -/
structure Timeline (prices : List Price) : Prop where
  ids : KeyUnique Price.id prices
  defaultOpen : ∀ p ∈ prices, p.isDefault = true → p.validTo = none
  single : ∀ p ∈ prices, ∀ q ∈ prices, p.isDefault = true → q.isDefault = true →
    p.key = q.key → p = q
  covered : ∀ p ∈ prices, ∃ q ∈ prices, q.isDefault = true ∧ q.key = p.key
  closed : ∀ p ∈ prices, p.isDefault = false → ∃ t, p.validTo = some t ∧ p.validFrom < t
  before : ∀ p ∈ prices, ∀ q ∈ prices, p.isDefault = false → q.isDefault = true →
    p.key = q.key → ∀ t, p.validTo = some t → t ≤ q.validFrom
  disjoint : ∀ p ∈ prices, ∀ q ∈ prices, p.isDefault = false → q.isDefault = false →
    p.key = q.key → p ≠ q → ∀ s t, p.validTo = some s → q.validTo = some t →
    s ≤ q.validFrom ∨ t ≤ p.validFrom

/-- A commit that replaces the default prices of its key, all of them older than
itself, keeps the timelines. -/
theorem Timeline.commit {tx : Transaction} {v : Variant} {ids : List Nat} {prices : List Price}
    {id : Nat} (h : Timeline prices) (hids : ∀ p ∈ prices, p.id ∈ ids ↔ tx.replaces v p = true)
    (hlater : ∀ p ∈ prices, tx.replaces v p = true → p.validFrom < tx.startedAt)
    (hfresh : ∀ p ∈ prices, p.id ≠ id) :
    Timeline (committedPrices tx ids (tx.newPrice v id) prices) := by
  have hold : ∀ p ∈ prices, p.id ∈ ids →
      p.key = tx.key v ∧ p.isDefault = true ∧ p.validFrom < tx.startedAt := fun p hp hid =>
    ⟨(replaces_iff.mp ((hids p hp).mp hid)).1, (replaces_iff.mp ((hids p hp).mp hid)).2,
      hlater p hp ((hids p hp).mp hid)⟩
  have hother : ∀ p ∈ prices, p.id ∉ ids → p.isDefault = true → p.key ≠ tx.key v :=
    fun p hp hid hdefault hkey => hid ((hids p hp).mpr (replaces_iff.mpr ⟨hkey, hdefault⟩))
  constructor
  · refine KeyUnique.append_singleton (h.ids.updateWhere fun _ _ _ => rfl) fun s hs => ?_
    obtain ⟨p, hp, rfl⟩ := mem_updateWhere.mp hs
    split
    · exact hfresh p hp
    · exact hfresh p hp
  · intro q hq hdefault
    rcases mem_committedPrices hq with rfl | ⟨p, hp, hid, rfl⟩ | ⟨hp, hid⟩
    · rfl
    · cases hdefault
    · exact h.defaultOpen q hp hdefault
  · intro q hq r hr hdq hdr hkey
    rcases mem_committedPrices hq with rfl | ⟨p, hp, hid, rfl⟩ | ⟨hp, hid⟩
    · rcases mem_committedPrices hr with rfl | ⟨p', hp', hid', rfl⟩ | ⟨hp', hid'⟩
      · rfl
      · cases hdr
      · exact absurd hkey.symm (hother r hp' hid' hdr)
    · cases hdq
    · rcases mem_committedPrices hr with rfl | ⟨p', hp', hid', rfl⟩ | ⟨hp', hid'⟩
      · exact absurd hkey (hother q hp hid hdq)
      · cases hdr
      · exact h.single q hp r hp' hdq hdr hkey
  · intro q hq
    by_cases hkey : q.key = tx.key v
    · exact ⟨_, new_mem tx ids _ prices, rfl, hkey.symm⟩
    · rcases mem_committedPrices hq with rfl | ⟨p, hp, hid, rfl⟩ | ⟨hp, hid⟩
      · exact absurd rfl hkey
      · exact absurd (hold p hp hid).1 hkey
      · obtain ⟨d, hd, hdefault, hdkey⟩ := h.covered q hp
        refine ⟨d, kept_mem hd fun hdid => ?_, hdefault, hdkey⟩
        exact hkey (hdkey.symm.trans (hold d hd hdid).1)
  · intro q hq hclosed
    rcases mem_committedPrices hq with rfl | ⟨p, hp, hid, rfl⟩ | ⟨hp, hid⟩
    · cases hclosed
    · exact ⟨tx.startedAt, rfl, (hold p hp hid).2.2⟩
    · exact h.closed q hp hclosed
  · intro q hq r hr hclosed hdr hkey t ht
    rcases mem_committedPrices hq with rfl | ⟨p, hp, hid, rfl⟩ | ⟨hp, hid⟩
    · cases hclosed
    · rcases mem_committedPrices hr with rfl | ⟨p', hp', hid', rfl⟩ | ⟨hp', hid'⟩
      · exact le_of_eq (Option.some.inj ht).symm
      · cases hdr
      · exact absurd (hkey.symm.trans (hold p hp hid).1) (hother r hp' hid' hdr)
    · rcases mem_committedPrices hr with rfl | ⟨p', hp', hid', rfl⟩ | ⟨hp', hid'⟩
      · -- a former price ends before the default one, which began before this one
        obtain ⟨d, hd, hdefault, hdkey⟩ := h.covered q hp
        have hend := h.before q hp d hd hclosed hdefault hdkey.symm t ht
        have hbegan := hlater d hd (replaces_iff.mpr ⟨hdkey.trans hkey, hdefault⟩)
        exact hend.trans hbegan.le
      · cases hdr
      · exact h.before q hp r hp' hclosed hdr hkey t ht
  · intro q hq r hr hcq hcr hkey hne s t hs ht
    rcases mem_committedPrices hq with rfl | ⟨p, hp, hid, rfl⟩ | ⟨hp, hid⟩
    · cases hcq
    · rcases mem_committedPrices hr with rfl | ⟨p', hp', hid', rfl⟩ | ⟨hp', hid'⟩
      · cases hcr
      · have hsame : p = p' := h.single p hp p' hp' (hold p hp hid).2.1 (hold p' hp' hid').2.1 hkey
        exact absurd (by rw [hsame]) hne
      · exact .inr (h.before r hp' p hp hcr (hold p hp hid).2.1 hkey.symm t ht)
    · rcases mem_committedPrices hr with rfl | ⟨p', hp', hid', rfl⟩ | ⟨hp', hid'⟩
      · cases hcr
      · exact .inl (h.before q hp p' hp' hcq (hold p' hp' hid').2.1 hkey s hs)
      · exact h.disjoint q hp r hp' hcq hcr hkey hne s t hs ht

/-- A price that begins at a time no earlier price of its key does: the timeline
ends with the default price. -/
theorem Timeline.validFrom_lt {prices : List Price} (h : Timeline prices) {k : Text × Text × Text}
    {t : Nat} (hlater : ∀ p ∈ prices, p.key = k → p.isDefault = true → p.validFrom < t) :
    ∀ p ∈ prices, p.key = k → p.validFrom < t := by
  intro p hp hkey
  cases hdefault : p.isDefault with
  | true => exact hlater p hp hkey hdefault
  | false =>
    obtain ⟨e, he, hlt⟩ := h.closed p hp hdefault
    obtain ⟨d, hd, hdd, hdkey⟩ := h.covered p hp
    have hend := h.before p hp d hd hdefault hdd hdkey.symm e he
    have hbegan := hlater d hd (hdkey.trans hkey) hdd
    omega

/-! ## Transactions under way -/

/-- What is known of a transaction. -/
structure TxOk (db : Database) (tx : Transaction) : Prop where
  accepted : tx.command.accepted = true
  sound : ∀ c, tx.phase ≠ .violated c
  rejected : ∀ message, tx.phase = .rejected message → findVariant db tx.command = .error message
  /-- The price it replaces began before it. -/
  later : ∀ v, tx.phase.variant? = some v → ∀ p ∈ db.prices, tx.replaces v p = true →
    p.validFrom < tx.startedAt
  closed : ∀ v ids, tx.phase.closed? = some (v, ids) →
    ∀ p ∈ db.prices, p.id ∈ ids ↔ tx.replaces v p = true
  rows : ∀ v ids, tx.phase.closed? = some (v, ids) → ∀ id ∈ ids, ∃ p ∈ db.prices, p.id = id
  added : ∀ v price, tx.phase.added? = some (v, price) →
    price = tx.newPrice v price.id ∧ price.id < db.nextPrice ∧ ∀ p ∈ db.prices, p.id ≠ price.id
  event : ∀ v price e, tx.phase.event? = some (v, price, e) →
    e = tx.newEvent v price e.sequence

/-- What an event is about. -/
def PriceChangeEvent.key (e : PriceChangeEvent) : Text × Text × Text :=
  (e.tenantId, e.variantId, e.currency)

/-- The last committed update of a key. -/
def lastUpdate (events : List PriceChangeEvent) (k : Text × Text × Text) :
    Option PriceChangeEvent :=
  (events.filter fun e => decide (e.key = k)).getLast?

structure UpdateInv (db : Database) : Prop where
  timeline : Timeline db.prices
  ids : ∀ p ∈ db.prices, p.id < db.nextPrice
  latest : ∀ k e, lastUpdate db.events k = some e →
    ∃ p ∈ db.prices, p.isDefault = true ∧ p.key = k ∧ p.id = e.priceId
  transactions : ∀ (i : Nat) (tx : Transaction), db.transactions[i]? = some tx → TxOk db tx
  /-- Rows added by different transactions have different ids. -/
  distinct : ∀ (i j : Nat) (tx tx' : Transaction) (v w : Variant) (p q : Price),
    db.transactions[i]? = some tx → db.transactions[j]? = some tx' →
    tx.phase.added? = some (v, p) → tx'.phase.added? = some (w, q) → p.id = q.id → i = j

theorem TxOk.txRows {db : Database} {tx : Transaction} (h : TxOk db tx) : TxRows db tx :=
  ⟨h.closed, h.rows, h.added, h.event⟩

theorem UpdateInv.rowInv {db : Database} (h : UpdateInv db) : RowInv db :=
  ⟨h.timeline.ids, h.ids, fun i tx hi => (h.transactions i tx hi).txRows, h.distinct⟩

/-- What the rows do not say of a transaction. -/
theorem TxOk.of_rows {db : Database} {tx : Transaction} (h : TxRows db tx)
    (haccepted : tx.command.accepted = true) (hsound : ∀ c, tx.phase ≠ .violated c)
    (hrejected : ∀ message, tx.phase = .rejected message →
      findVariant db tx.command = .error message)
    (hlater : ∀ v, tx.phase.variant? = some v → ∀ p ∈ db.prices, tx.replaces v p = true →
      p.validFrom < tx.startedAt) : TxOk db tx :=
  ⟨haccepted, hsound, hrejected, hlater, h.closed, h.rows, h.added, h.event⟩

/-- A transaction that holds no row. -/
theorem TxOk.idle {db : Database} {tx : Transaction} (haccepted : tx.command.accepted = true)
    (hsound : ∀ c, tx.phase ≠ .violated c)
    (hrejected : ∀ message, tx.phase = .rejected message →
      findVariant db tx.command = .error message)
    (hv : tx.phase.variant? = none) : TxOk db tx := by
  refine .of_rows (.idle hv) haccepted hsound hrejected fun v hsome => ?_
  rw [hv] at hsome
  cases hsome

/-- A step that leaves the prices alone says nothing new about a transaction. -/
theorem TxOk.frame {db u : Database} {tx : Transaction} (h : TxOk db tx)
    (hprices : u.prices = db.prices) (hnext : db.nextPrice ≤ u.nextPrice)
    (htenants : u.tenants = db.tenants) (hvariants : u.variants = db.variants) : TxOk u tx := by
  have hfind : findVariant u tx.command = findVariant db tx.command := by
    unfold findVariant
    rw [htenants, hvariants]
  refine .of_rows (h.txRows.frame hprices hnext) h.accepted h.sound ?_ ?_
  · rw [hfind]
    exact h.rejected
  · rw [hprices]
    exact h.later

/-- One transaction moves on, the tables stay: it is enough to look at it. -/
theorem UpdateInv.setPhase {db u : Database} {i : Nat} {tx : Transaction} {phase : Phase}
    (h : UpdateInv db) (hrows : RowInv u) (hi : db.transactions[i]? = some tx)
    (htransactions : u.transactions = (setPhase db i tx phase).transactions)
    (hprices : u.prices = db.prices) (hevents : u.events = db.events)
    (hnext : db.nextPrice ≤ u.nextPrice) (htenants : u.tenants = db.tenants)
    (hvariants : u.variants = db.variants) (hnew : TxOk u { tx with phase := phase }) :
    UpdateInv u := by
  refine ⟨?_, hrows.next, ?_, fun j tx' hj => ?_, hrows.distinct⟩
  · rw [hprices]
    exact h.timeline
  · rw [hprices, hevents]
    exact h.latest
  · rw [htransactions] at hj
    rcases setPhase_cases hi hj with ⟨rfl, rfl⟩ | ⟨-, hj'⟩
    · exact hnew
    · exact (h.transactions j tx' hj').frame hprices hnext htenants hvariants

/-! ## Steps -/

/-- The transaction that takes the lock started after the price it is going to
replace began. -/
def locksInOrder (db : Database) : Action → Bool
  | .statement i =>
    match db.transactions[i]? with
    | none => true
    | some tx =>
      match tx.phase, findVariant db tx.command with
      | .started, .ok v =>
        db.prices.all fun p => !tx.replaces v p || decide (p.validFrom < tx.startedAt)
      | _, _ => true
  | _ => true

theorem later_of_locksInOrder {db : Database} {i : Nat} {tx : Transaction} {v : Variant}
    (h : locksInOrder db (.statement i) = true) (hi : db.transactions[i]? = some tx)
    (hphase : tx.phase = .started) (hfind : findVariant db tx.command = .ok v) :
    ∀ p ∈ db.prices, tx.replaces v p = true → p.validFrom < tx.startedAt := by
  simp only [locksInOrder, hi, hphase, hfind, List.all_eq_true, Bool.or_eq_true,
    Bool.not_eq_true', decide_eq_true_eq] at h
  intro p hp hreplaces
  rcases h p hp with hno | hlt
  · rw [hreplaces] at hno
    cases hno
  · exact hlt

/-- No statement of a transaction that is in order runs into a constraint. -/
theorem TxOk.not_violates {db : Database} {tx : Transaction} {v : Variant} {c : Constraint}
    (h : TxOk db tx) (ht : Timeline db.prices) (hv : tx.phase.variant? = some v) :
    ¬ Violates db tx v c := by
  intro hviolates
  cases c with
  | validTo =>
    obtain ⟨-, p, hp, hreplaces, hlate⟩ := hviolates
    exact hlate (h.later v hv p hp hreplaces)
  | amounts =>
    obtain ⟨-, hbad⟩ := hviolates
    have haccepted := h.accepted
    simp only [PriceUpdateCommand.accepted, Bool.and_eq_true, decide_eq_true_eq,
      Option.all_eq_true] at haccepted
    rcases hbad with hneg | ⟨compareAt, hsome, hless⟩
    · omega
    · have := haccepted.1.2 compareAt hsome
      omega
  | validFromUnique =>
    obtain ⟨-, p, hp, hof, hsame⟩ := hviolates
    have hkey : p.key = tx.key v := by
      simpa [Price.isOf, Price.key, Transaction.key] using hof
    have hlt := ht.validFrom_lt (k := tx.key v)
      (fun q hq hqkey hdefault => h.later v hv q hq (replaces_iff.mpr ⟨hqkey, hdefault⟩)) p hp hkey
    omega
/-- The transactions on other rows are not touched by a commit. -/
theorem TxOk.commit {db : Database} {i j : Nat} {tx tx' : Transaction} {v : Variant}
    {ids : List Nat} {price : Price} {event : PriceChangeEvent} (h : UpdateInv db) (hl : Locks db)
    (hi : db.transactions[i]? = some tx) (hphase : tx.phase = .recorded v ids price event)
    (hj : db.transactions[j]? = some tx') (hij : j ≠ i) :
    TxOk (Catalog.commit db i tx ids price event) tx' := by
  have hok' := h.transactions j tx' hj
  refine .of_rows (.commit h.rowInv hl hi hphase hj hij) hok'.accepted hok'.sound hok'.rejected
    fun w hw q hq hrep => ?_
  obtain ⟨-, hreplaces⟩ := h.rowInv.untouched hl hi hphase hj hij hw
  exact hok'.later w hw q (hreplaces q hq hrep).1 hrep

/-- After a commit the last update of a key is the new one, or the one it was. -/
theorem lastUpdate_append (events : List PriceChangeEvent) (e : PriceChangeEvent)
    (k : Text × Text × Text) :
    lastUpdate (events ++ [e]) k = if e.key = k then some e else lastUpdate events k := by
  unfold lastUpdate
  by_cases hkey : e.key = k <;> simp [List.filter_append, hkey]

theorem UpdateInv.commit {db : Database} {i : Nat} {tx : Transaction} {v : Variant}
    {ids : List Nat} {price : Price} {event : PriceChangeEvent} (h : UpdateInv db) (hl : Locks db)
    (hi : db.transactions[i]? = some tx) (hphase : tx.phase = .recorded v ids price event) :
    UpdateInv (Catalog.commit db i tx ids price event) := by
  have hok := h.transactions i tx hi
  have hv : tx.phase.variant? = some v := by
    rw [hphase]
    rfl
  have hids := hok.closed v ids (by rw [hphase]; rfl)
  obtain ⟨hprice, -, hfresh⟩ := hok.added v price (by rw [hphase]; rfl)
  have hevent := hok.event v price event (by rw [hphase]; rfl)
  have hrows := h.rowInv.commit hl hi hphase
  refine ⟨?_, hrows.next, fun k e he => ?_, fun j tx' hj => ?_, hrows.distinct⟩
  · show Timeline (committedPrices tx ids price db.prices)
    rw [hprice]
    exact h.timeline.commit hids (hok.later v hv) hfresh
  · have hcases := he
    rw [Catalog.commit, lastUpdate_append] at hcases
    split at hcases
    · rename_i hkey
      cases hcases
      have hpricekey : price.key = k := by
        rw [hprice, ← hkey, hevent]
        rfl
      have hid : price.id = event.priceId := by
        rw [hevent]
        rfl
      have hdefault : price.isDefault = true := by
        rw [hprice]
        rfl
      exact ⟨price, new_mem tx ids price db.prices, hdefault, hpricekey, hid⟩
    · rename_i hkey
      obtain ⟨p, hp, hdefault, hpkey, hid⟩ := h.latest k e hcases
      refine ⟨p, kept_mem hp fun hclosed => hkey ?_, hdefault, hpkey, hid⟩
      have hreplaced := (replaces_iff.mp ((hids p hp).mp hclosed)).1
      rw [hevent]
      exact hreplaced.symm.trans hpkey
  · rcases setPhase_cases hi hj with ⟨rfl, rfl⟩ | ⟨hji, hj'⟩
    · exact .idle hok.accepted (fun c hc => by cases hc) (fun m hm => by cases hm) rfl
    · exact TxOk.commit h hl hi hphase hj' hji

/-- Every step in order keeps the invariant. -/
theorem UpdateInv.step {db u : Database} {a : Action} (h : UpdateInv db) (hl : Locks db)
    (hok : locksInOrder db a = true) (hm : Move db a u) : UpdateInv u := by
  have hrows := h.rowInv.step hl hm
  cases hm with
  | begin haccepted =>
    refine ⟨h.timeline, h.ids, h.latest, fun i tx hi => ?_, hrows.distinct⟩
    rcases begin_cases hi with rfl | hi
    · exact .idle haccepted (fun c hc => by cases hc) (fun m hm => by cases hm) rfl
    · exact (h.transactions i tx hi).frame rfl le_rfl rfl rfl
  | elapse n =>
    exact ⟨h.timeline, h.ids, h.latest,
      fun i tx hi => (h.transactions i tx hi).frame rfl le_rfl rfl rfl, h.distinct⟩
  | @reject i tx message hi hphase hfind =>
    have htx := h.transactions i tx hi
    refine h.setPhase hrows hi rfl rfl rfl le_rfl rfl rfl ?_
    refine .idle htx.accepted (fun c hc => by cases hc) (fun m hm => ?_) rfl
    cases hm
    exact hfind
  | @lock i tx v hi hphase hfind hfree =>
    have htx := h.transactions i tx hi
    refine h.setPhase hrows hi rfl rfl rfl le_rfl rfl rfl ?_
    refine .of_rows (hrows.acting hi rfl) htx.accepted (fun c hc => by cases hc)
      (fun m hm => by cases hm) fun w hw => ?_
    cases hw
    have hlater := later_of_locksInOrder hok hi hphase hfind
    exact hlater
  | @expire i tx v hi hphase =>
    have htx := h.transactions i tx hi
    refine h.setPhase hrows hi rfl rfl rfl le_rfl rfl rfl ?_
    refine .of_rows (hrows.acting hi rfl) htx.accepted (fun c hc => by cases hc)
      (fun m hm => by cases hm) fun w hw => ?_
    cases hw
    exact htx.later v (by rw [hphase]; rfl)
  | @insert i tx v ids hi hphase =>
    have htx := h.transactions i tx hi
    refine h.setPhase hrows hi rfl rfl rfl (Nat.le_succ _) rfl rfl ?_
    refine .of_rows (hrows.acting hi rfl) htx.accepted (fun c hc => by cases hc)
      (fun m hm => by cases hm) fun w hw => ?_
    cases hw
    exact htx.later v (by rw [hphase]; rfl)
  | @record i tx v ids price hi hphase =>
    have htx := h.transactions i tx hi
    refine h.setPhase hrows hi rfl rfl rfl le_rfl rfl rfl ?_
    refine .of_rows (hrows.acting hi rfl) htx.accepted (fun c hc => by cases hc)
      (fun m hm => by cases hm) fun w hw => ?_
    cases hw
    exact htx.later v (by rw [hphase]; rfl)
  | @violate i tx v c hi hv hreason =>
    exact absurd hreason ((h.transactions i tx hi).not_violates h.timeline hv)
  | commit hi hphase => exact h.commit hl hi hphase

/-! ## Whole runs -/

/-- A table with one price for each variant and currency, the default one and without
an end, and no transaction under way. -/
structure Fresh (db : Database) : Prop where
  ids : KeyUnique Price.id db.prices
  keys : KeyUnique Price.key db.prices
  default : ∀ p ∈ db.prices, p.isDefault = true ∧ p.validTo = none
  next : ∀ p ∈ db.prices, p.id < db.nextPrice
  events : db.events = []
  transactions : db.transactions = []

theorem Fresh.locks {db : Database} (h : Fresh db) : Locks db := by
  constructor
  · intro i j tx tx' v w hi
    rw [h.transactions] at hi
    simp at hi
  · intro i tx v hi
    rw [h.transactions] at hi
    simp at hi

theorem Fresh.updateInv {db : Database} (h : Fresh db) : UpdateInv db := by
  constructor
  · constructor
    · exact h.ids
    · intro p hp _
      exact (h.default p hp).2
    · intro p hp q hq _ _ hkey
      exact h.keys.eq_of_mem hp hq hkey
    · intro p hp
      exact ⟨p, hp, (h.default p hp).1, rfl⟩
    · intro p hp hclosed
      rw [(h.default p hp).1] at hclosed
      cases hclosed
    · intro p hp q hq hclosed
      rw [(h.default p hp).1] at hclosed
      cases hclosed
    · intro p hp q hq hclosed
      rw [(h.default p hp).1] at hclosed
      cases hclosed
  · exact h.next
  · intro k e he
    rw [h.events] at he
    cases he
  · intro i tx hi
    rw [h.transactions] at hi
    simp at hi
  · intro i j tx tx' v w p q hi
    rw [h.transactions] at hi
    simp at hi

/-- The variants that have a price keep one. -/
def Keeps (db u : Database) : Prop := ∀ p ∈ db.prices, ∃ q ∈ u.prices, q.key = p.key

theorem Move.keeps {db u : Database} {a : Action} (hm : Move db a u) : Keeps db u := by
  cases hm with
  | @commit i tx v ids price event hi hphase =>
    intro p hp
    by_cases hid : p.id ∈ ids
    · exact ⟨_, List.mem_append_left _ (mem_updateWhere_of_pos hp (by simp [hid])), rfl⟩
    · exact ⟨p, kept_mem hp hid, rfl⟩
  | begin => exact fun p hp => ⟨p, hp, rfl⟩
  | elapse => exact fun p hp => ⟨p, hp, rfl⟩
  | reject => exact fun p hp => ⟨p, hp, rfl⟩
  | lock => exact fun p hp => ⟨p, hp, rfl⟩
  | expire => exact fun p hp => ⟨p, hp, rfl⟩
  | insert => exact fun p hp => ⟨p, hp, rfl⟩
  | record => exact fun p hp => ⟨p, hp, rfl⟩
  | violate => exact fun p hp => ⟨p, hp, rfl⟩

/-- A transaction that is under way. -/
def Transaction.open (tx : Transaction) : Bool :=
  match tx.phase with
  | .committed => false
  | .rejected _ => false
  | .violated _ => false
  | _ => true

/-- A transaction can run its next statement unless it waits for another that holds
the row of its variant, which can. -/
theorem runs_or_waits {db : Database} {i : Nat} {tx : Transaction}
    (hi : db.transactions[i]? = some tx) (hopen : tx.open = true) :
    (∃ u, step db (.statement i) = some u) ∨
      ∃ (j : Nat) (tx' : Transaction) (v w : Variant), db.transactions[j]? = some tx' ∧
        findVariant db tx.command = .ok v ∧ tx'.phase.variant? = some w ∧ v.sameRow w = true ∧
        ∃ u, step db (.statement j) = some u := by
  have hstep : ∀ (j : Nat) (tx' : Transaction), db.transactions[j]? = some tx' →
      step db (.statement j) = statement db j tx' := by
    intro j tx' hj
    simp [step, hj]
  have hholder : ∀ (j : Nat) (tx' : Transaction) (w : Variant), db.transactions[j]? = some tx' →
      tx'.phase.variant? = some w → ∃ u, step db (.statement j) = some u := by
    intro j tx' w hj hw
    rw [hstep j tx' hj]
    unfold statement
    cases hphase : tx'.phase with
    | locked v => exact ⟨_, rfl⟩
    | expired v ids => exact ⟨_, rfl⟩
    | inserted v ids p => exact ⟨_, rfl⟩
    | recorded v ids p e => exact ⟨_, rfl⟩
    | started => rw [hphase] at hw; cases hw
    | committed => rw [hphase] at hw; cases hw
    | rejected m => rw [hphase] at hw; cases hw
    | violated c => rw [hphase] at hw; cases hw
  cases hv : tx.phase.variant? with
  | some w => exact .inl (hholder i tx w hi hv)
  | none =>
    have hstarted : tx.phase = .started := by
      unfold Transaction.open at hopen
      cases hphase : tx.phase <;> rw [hphase] at hv hopen <;> simp_all [Phase.variant?]
    rw [hstep i tx hi]
    unfold statement
    rw [hstarted]
    simp only [lockVariant]
    cases hfind : findVariant db tx.command with
    | error message => exact .inl ⟨_, rfl⟩
    | ok v =>
      cases hlocked : db.isLocked v with
      | false => exact .inl ⟨setPhase db i tx (.locked v), by simp [hlocked]⟩
      | true =>
        obtain ⟨tx', hmem, hany⟩ := List.any_eq_true.mp hlocked
        obtain ⟨w, hw, hrow⟩ := (Option.any_eq_true _ _).mp hany
        obtain ⟨j, hj⟩ := List.mem_iff_getElem?.mp hmem
        exact .inr ⟨j, tx', v, w, hj, rfl, hw, hrow, hholder j tx' w hj hw⟩

/-- Concurrent price updates succeed and keep one timeline. -/
structure PriceProtocol (db₀ db : Database) : Prop where
  /-- No update runs into a constraint, and none is turned away but for its tenant,
  currency or SKU. -/
  succeed : ∀ (i : Nat) (tx : Transaction), db.transactions[i]? = some tx →
    tx.open = true ∨ tx.phase = .committed ∨ ∃ message, findVariant db tx.command = .error message
  /-- None waits for ever. -/
  progress : ∀ (i : Nat) (tx : Transaction), db.transactions[i]? = some tx → tx.open = true →
    (∃ u, step db (.statement i) = some u) ∨
      ∃ (j : Nat) (tx' : Transaction) (v w : Variant), db.transactions[j]? = some tx' ∧
        findVariant db tx.command = .ok v ∧ tx'.phase.variant? = some w ∧ v.sameRow w = true ∧
        ∃ u, step db (.statement j) = some u
  /-- Each variant has exactly one default price, and it is open-ended. -/
  oneDefault : ∀ p ∈ db₀.prices, ∃! q, q ∈ db.prices ∧ q.isDefault = true ∧ q.key = p.key
  openEnded : ∀ p ∈ db.prices, p.isDefault = true → p.validTo = none
  /-- It is that of the last committed update. -/
  latest : ∀ p ∈ db.prices, p.isDefault = true → ∀ e, lastUpdate db.events p.key = some e →
    p.id = e.priceId
  /-- The other prices have intervals that are not empty and do not overlap. -/
  intervals : ∀ p ∈ db.prices, p.isDefault = false → ∃ t, p.validTo = some t ∧ p.validFrom < t
  disjoint : ∀ p ∈ db.prices, ∀ q ∈ db.prices, p.isDefault = false → q.isDefault = false →
    p.key = q.key → p ≠ q → ∀ s t, p.validTo = some s → q.validTo = some t →
    s ≤ q.validFrom ∨ t ≤ p.validFrom

/-- **Concurrent price updates.** In every run in which each transaction that takes
the lock on a variant started after the variant's default price began, all updates
succeed and the prices keep one timeline. -/
theorem price_updates_keep_timeline {db₀ db : Database} (h₀ : Fresh db₀)
    (hs : Reach step (fun db a => locksInOrder db a = true) db₀ db) : PriceProtocol db₀ db := by
  have hinv : Locks db ∧ UpdateInv db ∧ Keeps db₀ db := by
    refine Reach.invariant (I := fun db => Locks db ∧ UpdateInv db ∧ Keeps db₀ db) hs
      ⟨h₀.locks, h₀.updateInv, fun p hp => ⟨p, hp, rfl⟩⟩ ?_
    rintro t a u ⟨hl, hi, hk⟩ hok hstep
    have hm := move_of_step hstep
    refine ⟨hl.step hm, hi.step hl hok hm, fun p hp => ?_⟩
    obtain ⟨q, hq, hkey⟩ := hk p hp
    obtain ⟨r, hr, hrkey⟩ := hm.keeps q hq
    exact ⟨r, hr, hrkey.trans hkey⟩
  obtain ⟨-, hi, hk⟩ := hinv
  refine ⟨fun i tx htx => ?_, fun i tx htx hopen => runs_or_waits htx hopen, fun p hp => ?_,
    hi.timeline.defaultOpen, fun p hp hdefault e he => ?_, hi.timeline.closed,
    hi.timeline.disjoint⟩
  · have hok := hi.transactions i tx htx
    cases hphase : tx.phase with
    | committed => exact .inr (.inl rfl)
    | rejected message => exact .inr (.inr ⟨message, hok.rejected message hphase⟩)
    | violated c => exact absurd hphase (hok.sound c)
    | started => exact .inl (by simp [Transaction.open, hphase])
    | locked v => exact .inl (by simp [Transaction.open, hphase])
    | expired v ids => exact .inl (by simp [Transaction.open, hphase])
    | inserted v ids q => exact .inl (by simp [Transaction.open, hphase])
    | recorded v ids q e => exact .inl (by simp [Transaction.open, hphase])
  · obtain ⟨q, hq, hkey⟩ := hk p hp
    obtain ⟨d, hd, hdefault, hdkey⟩ := hi.timeline.covered q hq
    refine ⟨d, ⟨hd, hdefault, hdkey.trans hkey⟩, ?_⟩
    rintro r ⟨hr, hrdefault, hrkey⟩
    exact hi.timeline.single r hr d hd hrdefault hdefault
      (hrkey.trans (hdkey.trans hkey).symm)
  · obtain ⟨q, hq, hqdefault, hqkey, hid⟩ := hi.latest p.key e he
    rw [hi.timeline.single p hp q hq hdefault hqdefault hqkey.symm]
    exact hid

/-- One SKU of one tenant, at 1000 minor units since time 1; the clock shows 5. -/
def catalogSample : Database where
  now := 5
  tenants := [⟨"acme".toList, "EUR".toList⟩]
  variants := [⟨"acme".toList, "v".toList, "p".toList, "sku".toList⟩]
  prices := [⟨0, "acme".toList, "v".toList, "EUR".toList, 1000, none, 1, none, true⟩]
  events := []
  nextSequence := 1
  nextPrice := 1
  transactions := []

def priceCommandSample (amount : Int) : PriceUpdateCommand :=
  ⟨"acme".toList, "sku".toList, "EUR".toList, amount, none⟩

theorem catalogSample_fresh : Fresh catalogSample where
  ids := by simp [catalogSample, KeyUnique]
  keys := by simp [catalogSample, KeyUnique]
  default := by simp [catalogSample]
  next := by simp [catalogSample]
  events := rfl
  transactions := rfl

/-- Two updates of the SKU, both begun before either takes the lock: `first` runs to
its end, then `n` statements of `second`. -/
def updatesSample (first second n : Nat) : List Action :=
  [.begin (priceCommandSample 900), .elapse 1, .begin (priceCommandSample 800)] ++
    List.replicate 5 (.statement first) ++ List.replicate n (.statement second)

/-- The update that began first and locks second violates
`valid_to > valid_from`. -/
theorem overtaken_update_violates :
    ¬ ∀ db₀ db, Fresh db₀ → Reach step (fun _ _ => True) db₀ db → PriceProtocol db₀ db := by
  intro h
  obtain ⟨db, hrun, htx⟩ : ∃ db, run step catalogSample (updatesSample 1 0 2) = some db ∧
      db.transactions[0]? = some ⟨priceCommandSample 900, 5, .violated .validTo⟩ :=
    ⟨_, rfl, rfl⟩
  have hprotocol := h catalogSample db catalogSample_fresh (reach_of_run hrun)
  rcases hprotocol.succeed 0 _ htx with hopen | hcommitted | ⟨message, hmessage⟩
  · cases hopen
  · cases hcommitted
  · have hvariants : findVariant db (priceCommandSample 900) =
      .ok ⟨"acme".toList, "v".toList, "p".toList, "sku".toList⟩ := by
        cases hrun
        rfl
    rw [hvariants] at hmessage
    cases hmessage

theorem price_updates_keep_timeline_sample :
    ∃ db, runWhere step locksInOrder catalogSample (updatesSample 0 1 5) = some db ∧
      db.prices.length = 3 ∧ PriceProtocol catalogSample db := by
  obtain ⟨db, hrun, hlength⟩ : ∃ db,
      runWhere step locksInOrder catalogSample (updatesSample 0 1 5) = some db ∧
        db.prices.length = 3 := ⟨_, rfl, rfl⟩
  exact ⟨db, hrun, hlength,
    price_updates_keep_timeline catalogSample_fresh (reach_of_runWhere hrun)⟩

end CommercePlayground.Catalog
