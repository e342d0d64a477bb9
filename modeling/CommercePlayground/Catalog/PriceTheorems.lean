/-
CommercePlayground.Catalog.PriceTheorems — concurrent price updates.

What one statement of one transaction can do is said once, by `Move`. From it
follows what the variant lock is good for: of the transactions under way at most
one works on a variant, and the rows that its UPDATE found are the default rows
until it commits. The prices then keep one timeline for each variant and currency,
provided every transaction started after the one whose price it replaces. A
transaction that waited for the lock while a younger one went ahead breaks the
constraint `valid_to > valid_from` instead.
-/
import CommercePlayground.Catalog.Prices

namespace CommercePlayground.Catalog

open Lib

/-! ## Steps -/

/-- Why a statement runs into a constraint. -/
def Violates (db : Database) (tx : Transaction) (v : Variant) : Constraint → Prop
  | .validTo => tx.phase = .locked v ∧
      ∃ p ∈ db.prices, tx.replaces v p = true ∧ ¬ p.validFrom < tx.startedAt
  | .amounts => (∃ ids, tx.phase = .expired v ids) ∧
      (tx.command.amountMinor < 0 ∨
        ∃ c, tx.command.compareAtMinor = some c ∧ c < tx.command.amountMinor)
  | .validFromUnique => (∃ ids, tx.phase = .expired v ids) ∧
      ∃ p ∈ db.prices, p.isOf tx.command.tenantId v.id tx.command.currency = true ∧
        p.validFrom = tx.startedAt

/-- Everything a step can do. -/
inductive Move (db : Database) : Action → Database → Prop where
  | begin {command : PriceUpdateCommand} (haccepted : command.accepted = true) :
      Move db (.begin command)
        { db with transactions := db.transactions ++ [⟨command, db.now, .started⟩] }
  | elapse (n : Nat) : Move db (.elapse n) { db with now := db.now + n }
  | reject {i : Nat} {tx : Transaction} {message : String} (hi : db.transactions[i]? = some tx)
      (hphase : tx.phase = .started) (hfind : findVariant db tx.command = .error message) :
      Move db (.statement i) (setPhase db i tx (.rejected message))
  | lock {i : Nat} {tx : Transaction} {v : Variant} (hi : db.transactions[i]? = some tx)
      (hphase : tx.phase = .started) (hfind : findVariant db tx.command = .ok v)
      (hfree : db.isLocked v = false) :
      Move db (.statement i) (setPhase db i tx (.locked v))
  | expire {i : Nat} {tx : Transaction} {v : Variant} (hi : db.transactions[i]? = some tx)
      (hphase : tx.phase = .locked v) :
      Move db (.statement i)
        (setPhase db i tx (.expired v ((db.prices.filter (tx.replaces v)).map Price.id)))
  | insert {i : Nat} {tx : Transaction} {v : Variant} {ids : List Nat}
      (hi : db.transactions[i]? = some tx) (hphase : tx.phase = .expired v ids) :
      Move db (.statement i) { setPhase db i tx (.inserted v ids (tx.newPrice v db.nextPrice)) with
        nextPrice := db.nextPrice + 1 }
  | record {i : Nat} {tx : Transaction} {v : Variant} {ids : List Nat} {price : Price}
      (hi : db.transactions[i]? = some tx) (hphase : tx.phase = .inserted v ids price) :
      Move db (.statement i) (insertEvent db i tx v ids price)
  | violate {i : Nat} {tx : Transaction} {v : Variant} {c : Constraint}
      (hi : db.transactions[i]? = some tx) (hv : tx.phase.variant? = some v)
      (hreason : Violates db tx v c) :
      Move db (.statement i) (setPhase db i tx (.violated c))
  | commit {i : Nat} {tx : Transaction} {v : Variant} {ids : List Nat} {price : Price}
      {event : PriceChangeEvent} (hi : db.transactions[i]? = some tx)
      (hphase : tx.phase = .recorded v ids price event) :
      Move db (.statement i) (Catalog.commit db i tx ids price event)

theorem move_of_step {db u : Database} {a : Action} (h : step db a = some u) : Move db a u := by
  cases a with
  | begin command =>
    simp only [step] at h
    split at h
    · rename_i haccepted
      cases h
      exact .begin haccepted
    · cases h
  | elapse n =>
    cases h
    exact .elapse n
  | statement i =>
    obtain ⟨tx, hi, hstatement⟩ := Option.bind_eq_some_iff.mp h
    unfold statement at hstatement
    split at hstatement
    · rename_i hphase
      unfold lockVariant at hstatement
      split at hstatement
      · rename_i hfind
        cases hstatement
        exact .reject hi hphase hfind
      · rename_i v hfind
        split at hstatement
        · cases hstatement
        · rename_i hfree
          cases hstatement
          exact .lock hi hphase hfind (by simpa using hfree)
    · rename_i v hphase
      cases hstatement
      unfold expirePrices
      simp only
      split
      · exact .expire hi hphase
      · rename_i hrows
        obtain ⟨p, hp, hreplaces, hlate⟩ : ∃ p ∈ db.prices, tx.replaces v p = true ∧
            ¬ p.validFrom < tx.startedAt := by simpa using hrows
        exact .violate hi (by rw [hphase]; rfl) ⟨hphase, p, hp, hreplaces, hlate⟩
    · rename_i v ids hphase
      cases hstatement
      have hv : tx.phase.variant? = some v := by
        rw [hphase]
        rfl
      unfold insertPrice
      simp only
      split
      · rename_i hamounts
        have hbad : tx.command.amountMinor < 0 ∨
            ∃ c, tx.command.compareAtMinor = some c ∧ c < tx.command.amountMinor := by
          simp only [Bool.or_eq_true, decide_eq_true_eq, Option.any_eq_true] at hamounts
          exact hamounts
        have hreason : Violates db tx v .amounts := ⟨⟨ids, hphase⟩, hbad⟩
        exact .violate hi hv hreason
      · split
        · rename_i hunique
          have hbad : ∃ p ∈ db.prices,
              p.isOf tx.command.tenantId v.id tx.command.currency = true ∧
                p.validFrom = tx.startedAt := by
            simp only [List.any_eq_true, Bool.and_eq_true, decide_eq_true_eq] at hunique
            exact hunique
          have hreason : Violates db tx v .validFromUnique := ⟨⟨ids, hphase⟩, hbad⟩
          exact .violate hi hv hreason
        · exact .insert hi hphase
    · rename_i v ids price hphase
      cases hstatement
      exact .record hi hphase
    · rename_i v ids price event hphase
      cases hstatement
      exact .commit hi hphase
    · cases hstatement
    · cases hstatement
    · cases hstatement

/-! ## The variant lock -/

theorem getElem?_setPhase {db : Database} {i : Nat} {tx : Transaction} (phase : Phase)
    (hi : db.transactions[i]? = some tx) (j : Nat) :
    (setPhase db i tx phase).transactions[j]? =
      if j = i then some { tx with phase := phase } else db.transactions[j]? := by
  unfold setPhase
  simp only [List.getElem?_set]
  by_cases hij : i = j
  · subst hij
    have hlt : i < db.transactions.length := (List.getElem?_eq_some_iff.mp hi).1
    simp [hlt]
  · have hji : ¬ j = i := fun h => hij h.symm
    simp [hij, hji]

/-- A transaction of the state after `setPhase`: the one that acted, or another as
it was. -/
theorem setPhase_cases {db : Database} {i j : Nat} {tx tx' : Transaction} {phase : Phase}
    (hi : db.transactions[i]? = some tx)
    (hj : (setPhase db i tx phase).transactions[j]? = some tx') :
    (j = i ∧ tx' = { tx with phase := phase }) ∨ (j ≠ i ∧ db.transactions[j]? = some tx') := by
  rw [getElem?_setPhase phase hi] at hj
  split at hj
  · rename_i hji
    exact .inl ⟨hji, (Option.some.inj hj).symm⟩
  · rename_i hji
    exact .inr ⟨hji, hj⟩

/-- A transaction of the state after BEGIN. -/
theorem begin_cases {db : Database} {j : Nat} {tx new : Transaction}
    (hj : (db.transactions ++ [new])[j]? = some tx) : tx = new ∨ db.transactions[j]? = some tx := by
  rw [List.getElem?_append] at hj
  split at hj
  · exact .inr hj
  · have hmem := List.mem_of_getElem? hj
    exact .inl (List.mem_singleton.mp hmem)

theorem sameRow_iff {v w : Variant} : v.sameRow w = true ↔ v.tenantId = w.tenantId ∧ v.id = w.id := by
  simp [Variant.sameRow]

/-- What the lock on the row of a variant guarantees. -/
structure Locks (db : Database) : Prop where
  /-- One transaction holds a row. -/
  exclusive : ∀ (i j : Nat) (tx tx' : Transaction) (v w : Variant),
    db.transactions[i]? = some tx → db.transactions[j]? = some tx' →
    tx.phase.variant? = some v → tx'.phase.variant? = some w → v.sameRow w = true → i = j
  /-- The row is that of the SKU. -/
  found : ∀ (i : Nat) (tx : Transaction) (v : Variant), db.transactions[i]? = some tx →
    tx.phase.variant? = some v → findVariant db tx.command = .ok v

theorem Locks.setPhase {db : Database} (h : Locks db) {i : Nat} {tx : Transaction} {phase : Phase}
    (hi : db.transactions[i]? = some tx)
    (hv : ∀ v, phase.variant? = some v → tx.phase.variant? = some v) :
    Locks (setPhase db i tx phase) := by
  constructor
  · intro j k tx₁ tx₂ v w hj hk hv₁ hv₂ hrow
    rcases setPhase_cases hi hj with ⟨rfl, rfl⟩ | ⟨-, hj'⟩
    · rcases setPhase_cases hi hk with ⟨rfl, rfl⟩ | ⟨-, hk⟩
      · rfl
      · exact h.exclusive j k _ _ v w hi hk (hv v hv₁) hv₂ hrow
    · rcases setPhase_cases hi hk with ⟨rfl, rfl⟩ | ⟨-, hk⟩
      · exact h.exclusive j k _ _ v w hj' hi hv₁ (hv w hv₂) hrow
      · exact h.exclusive j k _ _ v w hj' hk hv₁ hv₂ hrow
  · intro j tx₁ v hj hv₁
    rcases setPhase_cases hi hj with ⟨rfl, rfl⟩ | ⟨-, hj⟩
    · exact h.found j tx v hi (hv v hv₁)
    · exact h.found j tx₁ v hj hv₁

theorem not_isLocked {db : Database} {v w : Variant} {j : Nat} {tx : Transaction}
    (hfree : db.isLocked v = false) (hj : db.transactions[j]? = some tx)
    (hw : tx.phase.variant? = some w) : v.sameRow w = false := by
  have hno : ∀ t ∈ db.transactions, t.phase.variant?.any v.sameRow = false := by
    simpa [Database.isLocked] using hfree
  have := hno tx (List.mem_of_getElem? hj)
  rw [hw] at this
  simpa using this

theorem Locks.step {db u : Database} {a : Action} (h : Locks db) (hm : Move db a u) : Locks u := by
  cases hm with
  | begin haccepted =>
    constructor
    · intro i j tx tx' v w hi hj hv hw hrow
      rcases begin_cases hi with rfl | hi
      · cases hv
      · rcases begin_cases hj with rfl | hj
        · cases hw
        · exact h.exclusive i j tx tx' v w hi hj hv hw hrow
    · intro i tx v hi hv
      rcases begin_cases hi with rfl | hi
      · cases hv
      · exact h.found i tx v hi hv
  | elapse n => exact ⟨h.exclusive, h.found⟩
  | reject hi hphase hfind =>
    refine h.setPhase hi fun v hv => ?_
    cases hv
  | @lock i tx v hi hphase hfind hfree =>
    constructor
    · intro j k tx₁ tx₂ v₁ v₂ hj hk hv₁ hv₂ hrow
      rcases setPhase_cases hi hj with ⟨rfl, rfl⟩ | ⟨-, hj'⟩
      · rcases setPhase_cases hi hk with ⟨rfl, rfl⟩ | ⟨-, hk⟩
        · rfl
        · cases hv₁
          rw [not_isLocked hfree hk hv₂] at hrow
          cases hrow
      · rcases setPhase_cases hi hk with ⟨rfl, rfl⟩ | ⟨-, hk⟩
        · cases hv₂
          have hfalse := not_isLocked hfree hj' hv₁
          have hsame := sameRow_iff.mp hrow
          rw [sameRow_iff.mpr ⟨hsame.1.symm, hsame.2.symm⟩] at hfalse
          cases hfalse
        · exact h.exclusive j k tx₁ tx₂ v₁ v₂ hj' hk hv₁ hv₂ hrow
    · intro j tx₁ v₁ hj hv₁
      rcases setPhase_cases hi hj with ⟨rfl, rfl⟩ | ⟨-, hj⟩
      · cases hv₁
        exact hfind
      · exact h.found j tx₁ v₁ hj hv₁
  | expire hi hphase =>
    refine h.setPhase hi fun v hv => ?_
    rw [hphase]
    exact hv
  | @insert i tx v ids hi hphase =>
    have hlocks : Locks (Catalog.setPhase db i tx (.inserted v ids (tx.newPrice v db.nextPrice))) :=
      h.setPhase hi fun w hw => by
        rw [hphase]
        exact hw
    exact ⟨hlocks.exclusive, hlocks.found⟩
  | @record i tx v ids price hi hphase =>
    have hlocks : Locks (Catalog.setPhase db i tx
        (.recorded v ids price (tx.newEvent v price db.nextSequence))) :=
      h.setPhase hi fun w hw => by
        rw [hphase]
        exact hw
    exact ⟨hlocks.exclusive, hlocks.found⟩
  | violate hi hv hreason =>
    refine h.setPhase hi fun w hw => ?_
    cases hw
  | @commit i tx v ids price event hi hphase =>
    have hlocks : Locks (Catalog.setPhase db i tx .committed) :=
      h.setPhase hi fun w hw => by cases hw
    exact ⟨hlocks.exclusive, hlocks.found⟩

end CommercePlayground.Catalog
