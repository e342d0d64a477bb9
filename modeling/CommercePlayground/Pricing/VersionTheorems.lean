/-
CommercePlayground.Pricing.VersionTheorems — when a cached quote is current.

A hit is current as long as no update commits under the version of its tenant while a
quote of that version shows another price of its SKU: the sequence numbers are taken before
the commit, so a smaller one can commit later and leave the version as it is.

`EntryOk`: a quote of the current version shows the prices of the current rows. A commit
either raises the version, or changes no price that such a quote shows; the clock changes
none.
-/
import CommercePlayground.Catalog.RowTheorems
import CommercePlayground.Pricing.CacheTheorems
import CommercePlayground.Pricing.QuoteTheorems
import CommercePlayground.Pricing.Versions

namespace CommercePlayground.Pricing.Versions

open Lib
open Catalog (Variant Price PriceChangeEvent Transaction committedPrices RowInv Locks Move)

/-! ## Conditions -/

/-- The entry a call has under way. -/
def Call.entry? (call : Call) : Option Entry :=
  match call.phase with
  | .version entry => some entry
  | .set quote => some ⟨quote, call.request⟩
  | _ => none

/-- The entries of the cache, and those that calls have under way. -/
def State.entries (s : State) : List Entry :=
  s.cache.map Prod.snd ++ s.calls.filterMap Call.entry?

/-- No call gets the entry of a different request. -/
def KeysApart (s : State) : Action → Prop
  | .access i _ => ∀ call entry, s.calls[i]? = some call →
      s.cache.lookup (cacheKey call.request) = some entry → SameQuote call.request entry.origin
  | _ => True

/-- A quote shows the price of an event. -/
def Shows (event : PriceChangeEvent) (entry : Entry) : Prop :=
  entry.origin.tenantId = event.tenantId → entry.origin.currencyCode = event.currency →
    ∀ line ∈ entry.quote.lines, line.sku = event.sku → line.unitMinor = event.amountMinor

/-- An update commits with a larger sequence number than all that its tenant has, or no
entry of the current version shows another price. -/
def CommitsInTime (env : Environment) (s : State) : Action → Prop
  | .price (.statement i) => ∀ tx v ids price event, s.db.transactions[i]? = some tx →
      tx.phase = .recorded v ids price event →
        maxSequence s.db event.tenantId < event.sequence ∨ ∀ entry ∈ s.entries,
          entry.quote.pricingVersion =
            pricingVersionIn (snapshot env s.db s.db.now true) event.tenantId →
          Shows event entry
  | _ => True

/-! ## The price query -/

section Query

variable {d : Directory} {db db' : Catalog.Database} {now now' : Nat}
  {tenantId customerId currency sku : Text} {v : Variant} {p : Price}

theorem sells_iff : d.sells tenantId customerId sku v = true ↔ v.tenantId = tenantId ∧
    v.sku = sku ∧ (v.tenantId, v.productId) ∈ d.products ∧
      (v.tenantId, customerId) ∈ d.customers := by
  simp only [Directory.sells, Bool.and_eq_true, decide_eq_true_eq, List.contains_iff_mem,
    and_assoc]

theorem inForce_iff : inForce currency now v p = true ↔ p.key = (v.tenantId, v.id, currency) ∧
    p.validFrom ≤ now ∧ (∀ validTo, p.validTo = some validTo → now < validTo) ∧
      p.isDefault = true := by
  simp only [inForce, Price.isOf, Price.key, Bool.and_eq_true, decide_eq_true_eq,
    Option.all_eq_true, Prod.mk.injEq, and_assoc]

theorem mem_joined {row : Variant × Price} :
    row ∈ joined d db now tenantId customerId currency sku ↔ row.1 ∈ db.variants ∧
      d.sells tenantId customerId sku row.1 = true ∧ row.2 ∈ db.prices ∧
        inForce currency now row.1 row.2 = true := by
  unfold joined
  rw [List.mem_flatMap]
  constructor
  · rintro ⟨w, hw, hrow⟩
    obtain ⟨hw, hsells⟩ := List.mem_filter.mp hw
    obtain ⟨q, hq, rfl⟩ := List.mem_map.mp hrow
    obtain ⟨hq, hforce⟩ := List.mem_filter.mp hq
    exact ⟨hw, hsells, hq, hforce⟩
  · rintro ⟨hw, hsells, hq, hforce⟩
    exact ⟨row.1, List.mem_filter.mpr ⟨hw, hsells⟩,
      List.mem_map.mpr ⟨row.2, List.mem_filter.mpr ⟨hq, hforce⟩, rfl⟩⟩

theorem mem_of_selectedRow {row : Variant × Price}
    (h : selectedRow d db now tenantId customerId currency sku = some row) :
    row ∈ joined d db now tenantId customerId currency sku := by
  have hmem := List.mem_of_mem_head? h
  rwa [List.mem_insertionSort] at hmem

/-- The SKU names one variant. -/
theorem joined_eq (hskus : KeyUnique (fun v : Variant => (v.tenantId, v.sku)) db.variants)
    (hv : v ∈ db.variants) (hsells : d.sells tenantId customerId sku v = true) :
    joined d db now tenantId customerId currency sku =
      (db.prices.filter (inForce currency now v)).map fun p => (v, p) := by
  have hfilter : db.variants.filter (d.sells tenantId customerId sku) = [v] := by
    refine hskus.filter_eq hv hsells fun w _ hw => ?_
    obtain ⟨htenant, hsku, -⟩ := sells_iff.mp hw
    obtain ⟨htenant', hsku', -⟩ := sells_iff.mp hsells
    rw [htenant, hsku, htenant', hsku']
  unfold joined
  rw [hfilter, List.flatMap_cons, List.flatMap_nil, List.append_nil]

/-- What is selected stays so while the rows in force of its variant do. -/
theorem selectedRow_congr
    (hskus : KeyUnique (fun v : Variant => (v.tenantId, v.sku)) db.variants)
    (hvariants : db'.variants = db.variants) {row : Variant × Price}
    (h : selectedRow d db now tenantId customerId currency sku = some row)
    (hprices : db'.prices.filter (inForce currency now' row.1) =
      db.prices.filter (inForce currency now row.1)) :
    selectedRow d db' now' tenantId customerId currency sku = some row := by
  obtain ⟨hv, hsells, -⟩ := mem_joined.mp (mem_of_selectedRow h)
  have hjoined : joined d db' now' tenantId customerId currency sku =
      joined d db now tenantId customerId currency sku := by
    rw [joined_eq hskus hv hsells, joined_eq (hvariants ▸ hskus) (hvariants ▸ hv) hsells, hprices]
  unfold selectedRow at h ⊢
  rw [hjoined, h]

theorem selectedPrices_lookup :
    (selectedPrices d db now tenantId customerId currency).lookup sku =
      (selectedRow d db now tenantId customerId currency sku).map selectedPrice := by
  unfold selectedPrices
  rw [lookup_filterMap fun other =>
    (selectedRow d db now tenantId customerId currency other).map selectedPrice]
  split
  · rfl
  · next hsku =>
    cases hrow : selectedRow d db now tenantId customerId currency sku with
    | none => rfl
    | some row =>
      obtain ⟨hv, hsells, -⟩ := mem_joined.mp (mem_of_selectedRow hrow)
      have hskuOf : row.1.sku = sku := (sells_iff.mp hsells).2.1
      exact absurd (List.mem_map.mpr ⟨row.1, hv, hskuOf⟩) hsku

end Query

/-! ## The database -/

/-- What the default rows are like. A price that began after the time `origin` is the only
default one of its variant. -/
structure Windows (origin : Nat) (db : Catalog.Database) : Prop where
  since : origin ≤ db.now
  begun : ∀ p ∈ db.prices, p.isDefault = true → p.validFrom ≤ db.now
  ended : ∀ p ∈ db.prices, p.isDefault = true → ∀ validTo, p.validTo = some validTo →
    validTo ≤ origin
  several : ∀ p ∈ db.prices, ∀ q ∈ db.prices, p.isDefault = true → q.isDefault = true →
    p.key = q.key → p ≠ q → p.validFrom ≤ origin
  started : ∀ tx ∈ db.transactions, tx.startedAt ≤ db.now

structure DatabaseInv (origin : Nat) (db : Catalog.Database) : Prop where
  locks : Locks db
  rows : RowInv db
  windows : Windows origin db
  variants : KeyUnique (fun v : Variant => (v.tenantId, v.id)) db.variants
  skus : KeyUnique (fun v : Variant => (v.tenantId, v.sku)) db.variants

section Database

variable {origin : Nat} {db db' : Catalog.Database}

/-- The clock puts no other price in force, once one is. -/
theorem Windows.filter_eq (h : Windows origin db) {currency : Text} {v : Variant} {p₀ : Price}
    {now : Nat} (horigin : origin ≤ now) (hp₀ : p₀ ∈ db.prices)
    (hforce : inForce currency now v p₀ = true) {now' : Nat} (hnow' : now ≤ now') :
    db.prices.filter (inForce currency now' v) = db.prices.filter (inForce currency now v) := by
  refine List.filter_congr fun p hp => ?_
  obtain ⟨hkey₀, hfrom₀, -, hdefault₀⟩ := inForce_iff.mp hforce
  rw [Bool.eq_iff_iff, inForce_iff, inForce_iff]
  constructor
  · rintro ⟨hkey, hfrom, hto, hdefault⟩
    refine ⟨hkey, ?_, fun validTo hvalid => ?_, hdefault⟩
    · by_cases hsame : p = p₀
      · rw [hsame]
        exact hfrom₀
      · exact (h.several p hp p₀ hp₀ hdefault hdefault₀ (hkey.trans hkey₀.symm) hsame).trans
          horigin
    · have := hto validTo hvalid
      omega
  · rintro ⟨hkey, hfrom, hto, hdefault⟩
    refine ⟨hkey, hfrom.trans hnow', fun validTo hvalid => ?_, hdefault⟩
    have hended := h.ended p hp hdefault validTo hvalid
    have := hto validTo hvalid
    omega

theorem Windows.frame (h : Windows origin db) (hprices : db'.prices = db.prices)
    (hnow : db.now ≤ db'.now) (hstarted : ∀ tx ∈ db'.transactions, tx.startedAt ≤ db'.now) :
    Windows origin db' := by
  refine ⟨h.since.trans hnow, fun p hp hdefault => ?_, ?_, ?_, hstarted⟩
  · rw [hprices] at hp
    exact (h.begun p hp hdefault).trans hnow
  · rw [hprices]
    exact h.ended
  · rw [hprices]
    exact h.several

/-- A default row after a commit: the new one, or one of another variant or currency. -/
theorem default_cases {i : Nat} {tx : Transaction} {v : Variant} {ids : List Nat}
    {price : Price} {event : PriceChangeEvent} (h : RowInv db)
    (hi : db.transactions[i]? = some tx) (hphase : tx.phase = .recorded v ids price event)
    {p : Price} (hp : p ∈ committedPrices tx ids price db.prices) (hdefault : p.isDefault = true) :
    p = price ∨ p ∈ db.prices ∧ p.key ≠ tx.key v := by
  have hids := (h.transactions i tx hi).closed v ids (by rw [hphase]; rfl)
  rcases Catalog.mem_committedPrices hp with rfl | ⟨q, -, -, rfl⟩ | ⟨hp, hid⟩
  · exact .inl rfl
  · cases hdefault
  · exact .inr ⟨hp, fun hkey => hid ((hids p hp).mpr (Catalog.replaces_iff.mpr ⟨hkey, hdefault⟩))⟩

theorem Windows.commit {i : Nat} {tx : Transaction} {v : Variant} {ids : List Nat}
    {price : Price} {event : PriceChangeEvent} (h : Windows origin db) (hrows : RowInv db)
    (hi : db.transactions[i]? = some tx) (hphase : tx.phase = .recorded v ids price event)
    (hstarted : ∀ tx' ∈ (Catalog.commit db i tx ids price event).transactions,
      tx'.startedAt ≤ db.now) : Windows origin (Catalog.commit db i tx ids price event) := by
  obtain ⟨hprice, -⟩ := (hrows.transactions i tx hi).added v price (by rw [hphase]; rfl)
  have hkey : price.key = tx.key v := by
    rw [hprice]
    rfl
  refine ⟨h.since, fun p hp hdefault => ?_, fun p hp hdefault validTo hvalid => ?_,
    fun p hp q hq hdp hdq hsame hne => ?_, hstarted⟩
  · rcases default_cases hrows hi hphase hp hdefault with rfl | ⟨hp, -⟩
    · rw [hprice]
      exact h.started tx (List.mem_of_getElem? hi)
    · exact h.begun p hp hdefault
  · rcases default_cases hrows hi hphase hp hdefault with rfl | ⟨hp, -⟩
    · rw [hprice] at hvalid
      cases hvalid
    · exact h.ended p hp hdefault validTo hvalid
  · rcases default_cases hrows hi hphase hp hdp with rfl | ⟨hp, hother⟩
    · rcases default_cases hrows hi hphase hq hdq with rfl | ⟨-, hother⟩
      · exact absurd rfl hne
      · exact absurd (hsame.symm.trans hkey) hother
    · rcases default_cases hrows hi hphase hq hdq with rfl | ⟨hq, -⟩
      · exact absurd (hsame.trans hkey) hother
      · exact h.several p hp q hq hdp hdq hsame hne

theorem started_setPhase {i : Nat} {tx : Transaction} {phase : Catalog.Phase}
    (h : Windows origin db) (hi : db.transactions[i]? = some tx) :
    ∀ tx' ∈ (Catalog.setPhase db i tx phase).transactions, tx'.startedAt ≤ db.now := by
  intro tx' htx'
  rcases List.mem_or_eq_of_mem_set htx' with hold | rfl
  · exact h.started tx' hold
  · exact h.started tx (List.mem_of_getElem? hi)

theorem Windows.step {a : Catalog.Action} (h : Windows origin db) (hrows : RowInv db)
    (hm : Move db a db') : Windows origin db' := by
  cases hm with
  | begin haccepted =>
    refine h.frame rfl le_rfl fun tx htx => ?_
    rcases List.mem_append.mp htx with htx | htx
    · exact h.started tx htx
    · rw [List.mem_singleton.mp htx]
  | elapse n =>
    exact h.frame rfl (Nat.le_add_right _ _) fun tx htx =>
      (h.started tx htx).trans (Nat.le_add_right _ _)
  | reject hi => exact h.frame rfl le_rfl (started_setPhase h hi)
  | lock hi => exact h.frame rfl le_rfl (started_setPhase h hi)
  | expire hi => exact h.frame rfl le_rfl (started_setPhase h hi)
  | insert hi => exact h.frame rfl le_rfl (started_setPhase h hi)
  | record hi => exact h.frame rfl le_rfl (started_setPhase h hi)
  | violate hi => exact h.frame rfl le_rfl (started_setPhase h hi)
  | commit hi hphase => exact h.commit hrows hi hphase (started_setPhase h hi)

theorem variants_of_move {a : Catalog.Action} (hm : Move db a db') :
    db'.variants = db.variants := by
  cases hm <;> rfl

theorem DatabaseInv.step {a : Catalog.Action} (h : DatabaseInv origin db) (hm : Move db a db') :
    DatabaseInv origin db' := by
  have hvariants := variants_of_move hm
  refine ⟨h.locks.step hm, h.rows.step h.locks hm, h.windows.step h.rows hm, ?_, ?_⟩
  · rw [hvariants]
    exact h.variants
  · rw [hvariants]
    exact h.skus

end Database

/-! ## Commits -/

section Commit

variable {origin : Nat} {db : Catalog.Database} {i : Nat} {tx : Transaction} {v w : Variant}
  {ids : List Nat} {price : Price} {event : PriceChangeEvent} {currency : Text} {now : Nat}

/-- A commit changes no price of another variant or in another currency. -/
theorem filter_commit_other (h : RowInv db) (hi : db.transactions[i]? = some tx)
    (hphase : tx.phase = .recorded v ids price event)
    (hkey : (w.tenantId, w.id, currency) ≠ tx.key v) :
    (committedPrices tx ids price db.prices).filter (inForce currency now w) =
      db.prices.filter (inForce currency now w) := by
  have hrows := h.transactions i tx hi
  have hids := hrows.closed v ids (by rw [hphase]; rfl)
  obtain ⟨hprice, -⟩ := hrows.added v price (by rw [hphase]; rfl)
  have hother : ∀ p : Price, p.key = tx.key v → inForce currency now w p = false := by
    intro p hp
    rw [← Bool.not_eq_true, inForce_iff]
    exact fun hforce => hkey (hforce.1.symm.trans hp)
  have hnew : inForce currency now w price = false := by
    refine hother price ?_
    rw [hprice]
    rfl
  unfold Catalog.committedPrices
  rw [List.filter_append, filter_updateWhere fun p hp hid => ?_, List.filter_singleton, hnew]
  · simp
  · have hclosed := (Catalog.replaces_iff.mp ((hids p hp).mp (of_decide_eq_true hid))).1
    exact ⟨hother p hclosed, hother _ hclosed⟩

/-- After a commit only the new price of the variant is in force. -/
theorem filter_commit_own (h : RowInv db) (hi : db.transactions[i]? = some tx)
    (hphase : tx.phase = .recorded v ids price event)
    (hkey : (w.tenantId, w.id, currency) = tx.key v) (hnow : tx.startedAt ≤ now) :
    (committedPrices tx ids price db.prices).filter (inForce currency now w) = [price] := by
  have hrows := h.transactions i tx hi
  have hids := hrows.closed v ids (by rw [hphase]; rfl)
  obtain ⟨hprice, -⟩ := hrows.added v price (by rw [hphase]; rfl)
  have hnew : inForce currency now w price = true := by
    rw [hprice]
    exact inForce_iff.mpr ⟨hkey.symm, hnow, (fun _ hvalid => by cases hvalid), rfl⟩
  have hold : (updateWhere (fun p => decide (p.id ∈ ids)) (Price.expire tx.startedAt)
      db.prices).filter (inForce currency now w) = [] := by
    refine List.filter_eq_nil_iff.mpr fun q hq hforce => ?_
    obtain ⟨p, hp, rfl⟩ := mem_updateWhere.mp hq
    obtain ⟨hpkey, -, -, hdefault⟩ := inForce_iff.mp hforce
    split at hdefault
    · cases hdefault
    · next hid =>
      rw [if_neg hid] at hpkey
      have hclosed := (hids p hp).mpr (Catalog.replaces_iff.mpr ⟨hpkey.trans hkey, hdefault⟩)
      exact hid (decide_eq_true hclosed)
  unfold Catalog.committedPrices
  rw [List.filter_append, hold, List.filter_singleton, hnew]
  rfl

theorem maxSequence_commit {tenantId : Text} :
    maxSequence (Catalog.commit db i tx ids price event) tenantId =
      if event.tenantId = tenantId then max (maxSequence db tenantId) event.sequence
      else maxSequence db tenantId := by
  unfold maxSequence Catalog.commit
  rw [List.filter_append, List.filter_singleton]
  split
  · next htenant => rw [decide_eq_true htenant, List.map_append]; exact foldr_max_append _ _
  · next htenant => simp [htenant]

/-! ## Quotes -/

/-- The query selects the price of a line. -/
def Current (d : Directory) (db : Catalog.Database) (request : QuoteRequest)
    (line : CachedLine) : Prop :=
  ∃ row, selectedRow d db db.now request.tenantId request.customerId request.currencyCode
    line.sku = some row ∧ row.2.amountMinor = line.unitMinor

variable {d : Directory} {request : QuoteRequest} {line : CachedLine}

theorem Current.frame (h : Current d db request line) (hinv : DatabaseInv origin db)
    {db' : Catalog.Database} (hprices : db'.prices = db.prices)
    (hvariants : db'.variants = db.variants) (hnow : db.now ≤ db'.now) :
    Current d db' request line := by
  obtain ⟨row, hrow, hamount⟩ := h
  obtain ⟨-, -, hmem, hforce⟩ := mem_joined.mp (mem_of_selectedRow hrow)
  refine ⟨row, selectedRow_congr hinv.skus hvariants hrow ?_, hamount⟩
  rw [hprices]
  exact hinv.windows.filter_eq hinv.windows.since hmem hforce hnow

/-- A commit that shows the price of a line, if it is of its SKU, keeps it current. -/
theorem Current.commit (h : Current d db request line) (hinv : DatabaseInv origin db)
    (hi : db.transactions[i]? = some tx) (hphase : tx.phase = .recorded v ids price event)
    (hshows : request.tenantId = event.tenantId → request.currencyCode = event.currency →
      line.sku = event.sku → line.unitMinor = event.amountMinor) :
    Current d (Catalog.commit db i tx ids price event) request line := by
  obtain ⟨row, hrow, hamount⟩ := h
  obtain ⟨hmem, hsells, -⟩ := mem_joined.mp (mem_of_selectedRow hrow)
  obtain ⟨htenant, hsku, -⟩ := sells_iff.mp hsells
  have hvariants : (Catalog.commit db i tx ids price event).variants = db.variants := rfl
  by_cases hkey : (row.1.tenantId, row.1.id, request.currencyCode) = tx.key v
  · have hrows := hinv.rows.transactions i tx hi
    obtain ⟨hprice, -⟩ := hrows.added v price (by rw [hphase]; rfl)
    have hevent := hrows.event v price event (by rw [hphase]; rfl)
    have hfound := hinv.locks.found i tx v hi (by rw [hphase]; rfl)
    obtain ⟨hvtenant, hvsku⟩ := Catalog.findVariant_ok hfound
    simp only [Transaction.key, Prod.mk.injEq] at hkey
    -- the variant of the line is that of the update
    have hvariant : row.1 = v := by
      refine hinv.variants.eq_of_mem hmem (Catalog.mem_of_findVariant hfound) ?_
      rw [hkey.1, hkey.2.1, hvtenant]
    have hunit : line.unitMinor = price.amountMinor := by
      rw [hshows ?_ ?_ ?_, hevent, hprice]
      · rfl
      · rw [hevent, ← htenant, hkey.1]
        rfl
      · rw [hevent, hkey.2.2]
        rfl
      · rw [hevent, ← hsku, hvariant, hvsku]
        rfl
    refine ⟨(v, price), ?_, hunit.symm⟩
    have hjoined : joined d (Catalog.commit db i tx ids price event) db.now request.tenantId
        request.customerId request.currencyCode line.sku = [(v, price)] := by
      rw [joined_eq (hvariants ▸ hinv.skus) (hvariants ▸ hvariant ▸ hmem) (hvariant ▸ hsells)]
      show ((committedPrices tx ids price db.prices).filter _).map _ = _
      rw [filter_commit_own hinv.rows hi hphase _ (hinv.windows.started tx (List.mem_of_getElem? hi))]
      · rfl
      · rw [← hvariant, hkey.1, hkey.2.1, hkey.2.2, hvariant]
        rfl
    show selectedRow d (Catalog.commit db i tx ids price event) db.now _ _ _ _ = _
    unfold selectedRow
    rw [hjoined]
    rfl
  · refine ⟨row, selectedRow_congr hinv.skus hvariants hrow ?_, hamount⟩
    exact filter_commit_other hinv.rows hi hphase hkey

end Commit

/-- `pricing_version` of a sequence number. -/
def versionText (n : Nat) : Text := "price-change-".toList ++ decimal n

theorem versionText_injective {m n : Nat} (h : versionText m = versionText n) : m = n :=
  decimal_injective (List.append_cancel_left h)

/-- A quote of the current version shows the current prices. -/
structure EntryOk (env : Environment) (db : Catalog.Database) (entry : Entry) : Prop where
  version : ∃ n, n ≤ maxSequence db entry.origin.tenantId ∧
    entry.quote.pricingVersion = versionText n
  current : entry.quote.pricingVersion = versionText (maxSequence db entry.origin.tenantId) →
    ∀ line ∈ entry.quote.lines, Current env.directory db entry.origin line

section Entries

variable {env : Environment} {origin : Nat} {db db' : Catalog.Database} {entry : Entry}

theorem EntryOk.frame (h : EntryOk env db entry) (hinv : DatabaseInv origin db)
    (hprices : db'.prices = db.prices) (hvariants : db'.variants = db.variants)
    (hevents : db'.events = db.events) (hnow : db.now ≤ db'.now) : EntryOk env db' entry := by
  have hmax : maxSequence db' = maxSequence db := by
    funext tenantId
    unfold maxSequence
    rw [hevents]
  refine ⟨?_, fun hversion line hline => ?_⟩
  · rw [hmax]
    exact h.version
  · rw [hmax] at hversion
    exact (h.current hversion line hline).frame hinv hprices hvariants hnow

/-- A commit raises the version, or the entry shows its price. -/
theorem EntryOk.commit {i : Nat} {tx : Transaction} {v : Variant} {ids : List Nat}
    {price : Price} {event : PriceChangeEvent} (h : EntryOk env db entry)
    (hinv : DatabaseInv origin db) (hi : db.transactions[i]? = some tx)
    (hphase : tx.phase = .recorded v ids price event)
    (htime : maxSequence db event.tenantId < event.sequence ∨
      (entry.quote.pricingVersion = versionText (maxSequence db event.tenantId) →
        Shows event entry)) :
    EntryOk env (Catalog.commit db i tx ids price event) entry := by
  obtain ⟨n, hn, hversion⟩ := h.version
  by_cases htenant : event.tenantId = entry.origin.tenantId
  · have hmax : maxSequence (Catalog.commit db i tx ids price event) entry.origin.tenantId =
        max (maxSequence db entry.origin.tenantId) event.sequence := by
      rw [maxSequence_commit, if_pos htenant]
    refine ⟨⟨n, ?_, hversion⟩, fun hcurrent line hline => ?_⟩
    · rw [hmax]
      exact hn.trans (Nat.le_max_left _ _)
    · rw [hmax, hversion] at hcurrent
      have hsequence := versionText_injective hcurrent
      rw [htenant] at htime
      -- the version has not been raised, and so the entry shows the price
      rcases htime with hlarger | hshows
      · omega
      · have hn : n = maxSequence db entry.origin.tenantId := by omega
        rw [hn] at hversion
        exact (h.current hversion line hline).commit hinv hi hphase
          fun ht hc => hshows hversion ht hc line hline
  · have hmax : maxSequence (Catalog.commit db i tx ids price event) entry.origin.tenantId =
        maxSequence db entry.origin.tenantId := by
      rw [maxSequence_commit, if_neg htenant]
    refine ⟨⟨n, by rw [hmax]; exact hn, hversion⟩, fun hcurrent line hline => ?_⟩
    rw [hmax] at hcurrent
    exact (h.current hcurrent line hline).commit hinv hi hphase fun ht => absurd ht.symm htenant

theorem EntryOk.move {a : Catalog.Action} (h : EntryOk env db entry)
    (hinv : DatabaseInv origin db) (hm : Move db a db')
    (htime : ∀ (i : Nat) (tx : Transaction) (v : Variant) (ids : List Nat) (price : Price)
      (event : PriceChangeEvent), a = .statement i → db.transactions[i]? = some tx →
      tx.phase = .recorded v ids price event → maxSequence db event.tenantId < event.sequence ∨
        (entry.quote.pricingVersion = versionText (maxSequence db event.tenantId) →
          Shows event entry)) : EntryOk env db' entry := by
  cases hm with
  | commit hi hphase => exact h.commit hinv hi hphase (htime _ _ _ _ _ _ rfl hi hphase)
  | elapse n => exact h.frame hinv rfl rfl rfl (Nat.le_add_right _ _)
  | begin => exact h.frame hinv rfl rfl rfl le_rfl
  | reject => exact h.frame hinv rfl rfl rfl le_rfl
  | lock => exact h.frame hinv rfl rfl rfl le_rfl
  | expire => exact h.frame hinv rfl rfl rfl le_rfl
  | insert => exact h.frame hinv rfl rfl rfl le_rfl
  | record => exact h.frame hinv rfl rfl rfl le_rfl
  | violate => exact h.frame hinv rfl rfl rfl le_rfl

/-- A quote is current when it is computed. -/
theorem entryOk_of_calculateQuote (hinv : DatabaseInv origin db) {request : QuoteRequest}
    {startedAt : Nat} (horigin : origin ≤ startedAt) (hnow : startedAt ≤ db.now)
    {available : Bool} {quote : CachedQuote}
    (h : calculateQuote env.format (snapshot env db startedAt available) request = .ok quote) :
    EntryOk env db ⟨quote, request⟩ := by
  have hspec := calculateQuote_spec h
  refine ⟨⟨_, le_rfl, hspec.version⟩, fun _ line hline => ?_⟩
  obtain ⟨item, -, hpriced⟩ := exists_priced hspec.lines line hline
  obtain ⟨price, hlookup, hunit⟩ := hpriced.price
  have hlookup : (selectedPrices env.directory db startedAt request.tenantId request.customerId
      request.currencyCode).lookup item.sku = some price := hlookup
  rw [selectedPrices_lookup] at hlookup
  obtain ⟨row, hrow, rfl⟩ := Option.map_eq_some_iff.mp hlookup
  rw [← hpriced.sku] at hrow
  obtain ⟨-, -, hmem, hforce⟩ := mem_joined.mp (mem_of_selectedRow hrow)
  exact ⟨row, selectedRow_congr hinv.skus rfl hrow
    (hinv.windows.filter_eq horigin hmem hforce hnow), hunit⟩

end Entries

/-! ## The invariant -/

/-- What a call has in hand, and what it has returned from the cache. -/
structure CallOk (origin : Nat) (env : Environment) (db : Catalog.Database) (call : Call) :
    Prop where
  compute : ∀ startedAt, call.phase = .compute startedAt → origin ≤ startedAt ∧ startedAt ≤ db.now
  held : ∀ entry, call.entry? = some entry → EntryOk env db entry
  same : ∀ entry, call.phase = .version entry → SameQuote call.request entry.origin
  hit : ∀ entry read, call.phase = .hit entry read →
    ∀ line ∈ entry.quote.lines, Current env.directory read call.request line

structure Inv (origin : Nat) (env : Environment) (s : State) : Prop where
  db : DatabaseInv origin s.db
  cache : ∀ p ∈ s.cache, EntryOk env s.db p.2
  calls : ∀ call ∈ s.calls, CallOk origin env s.db call

section Steps

variable {origin : Nat} {env : Environment} {s s' : State}

/-- A phase with nothing in hand. -/
theorem CallOk.quiet {db : Catalog.Database} {call : Call}
    (hcompute : ∀ startedAt, call.phase ≠ .compute startedAt) (hheld : call.entry? = none)
    (hhit : ∀ entry read, call.phase ≠ .hit entry read) : CallOk origin env db call := by
  refine ⟨fun _ hphase => absurd hphase (hcompute _), fun _ hentry => ?_, fun _ hphase => ?_,
    fun _ _ hphase => absurd hphase (hhit _ _)⟩
  · rw [hheld] at hentry
    cases hentry
  · unfold Call.entry? at hheld
    rw [hphase] at hheld
    cases hheld

theorem Inv.setPhase (h : Inv origin env s) {i : Nat} {call : Call} {phase : Phase}
    (hcall : CallOk origin env s.db { call with phase := phase }) :
    Inv origin env (s.setPhase i call phase) := by
  refine ⟨h.db, h.cache, fun call' hcall' => ?_⟩
  rcases List.mem_or_eq_of_mem_set hcall' with hold | rfl
  · exact h.calls call' hold
  · exact hcall

theorem Inv.start (h : Inv origin env s) (request : QuoteRequest) (useCache : Bool) :
    Inv origin env (start request useCache s) := by
  unfold Versions.start
  split
  · exact h
  · refine ⟨h.db, h.cache, fun call hcall => ?_⟩
    rcases List.mem_append.mp hcall with hcall | hcall
    · exact h.calls call hcall
    · rw [List.mem_singleton.mp hcall]
      cases useCache with
      | true => exact .quiet (fun _ => nofun) rfl fun _ _ => nofun
      | false => exact .quiet (fun _ => nofun) rfl fun _ _ => nofun

theorem got_cases (found : Option Entry) (now : Int) :
    got found now = .begin ∨ ∃ entry, got found now = .version entry ∧ found = some entry := by
  cases found with
  | none => exact .inl rfl
  | some entry =>
    unfold got
    simp only
    split
    · exact .inl rfl
    · exact .inr ⟨entry, rfl, rfl⟩

theorem Inv.got (h : Inv origin env s) {i : Nat} {call : Call} {succeeds : Bool}
    (hi : s.calls[i]? = some call) (hapart : KeysApart s (.access i succeeds)) (now : Int) :
    CallOk origin env s.db { call with phase := got (s.find call succeeds) now } := by
  rcases got_cases (s.find call succeeds) now with hbegin | ⟨entry, hgot, hfound⟩
  · rw [hbegin]
    exact .quiet (fun _ => nofun) rfl fun _ _ => nofun
  · have hlookup : s.cache.lookup (cacheKey call.request) = some entry := by
      unfold State.find at hfound
      split at hfound
      · exact hfound
      · cases hfound
    rw [hgot]
    refine ⟨nofun, fun entry' heq => ?_, fun entry' heq => ?_, fun _ _ => nofun⟩
    · cases heq
      exact h.cache _ (mem_of_lookup hlookup)
    · cases heq
      exact hapart call entry hi hlookup

/-- A hit: the entry is one of the version that was read. -/
theorem CallOk.compared {call : Call} (h : CallOk origin env s.db call) {entry : Entry}
    (hphase : call.phase = .version entry) (succeeds : Bool) :
    CallOk origin env s.db { call with phase := compared env s call entry succeeds } := by
  unfold Versions.compared
  split
  · exact .quiet (fun _ => nofun) rfl fun _ _ => nofun
  · split
    · next hversion =>
      refine ⟨nofun, nofun, nofun, fun entry' read heq line hline => ?_⟩
      cases heq
      have hentry := h.held entry (by unfold Call.entry?; rw [hphase])
      have hsame := h.same entry hphase
      obtain ⟨row, hrow, hamount⟩ := hentry.current (hsame.tenant ▸ hversion) line hline
      refine ⟨row, ?_, hamount⟩
      rw [hsame.tenant, hsame.customer, hsame.currency]
      exact hrow
    · exact .quiet (fun _ => nofun) rfl fun _ _ => nofun

theorem Inv.computed (h : Inv origin env s) {call : Call} {startedAt : Nat}
    (horigin : origin ≤ startedAt) (hnow : startedAt ≤ s.db.now) (succeeds : Bool) :
    CallOk origin env s.db { call with phase := computed env s call startedAt succeeds } := by
  unfold Versions.computed
  split
  · exact .quiet (fun _ => nofun) rfl fun _ _ => nofun
  · next quote hquote =>
    cases call.useCache with
    | true =>
      refine ⟨nofun, fun entry heq => ?_, nofun, fun _ _ => nofun⟩
      cases heq
      exact entryOk_of_calculateQuote h.db horigin hnow hquote
    | false => exact .quiet (fun _ => nofun) rfl fun _ _ => nofun

theorem Inv.access (h : Inv origin env s) {i : Nat} {call : Call} {succeeds : Bool}
    (hi : s.calls[i]? = some call) (hapart : KeysApart s (.access i succeeds))
    (hs : access env s i call succeeds = some s') : Inv origin env s' := by
  have hcall := h.calls call (List.mem_of_getElem? hi)
  unfold Versions.access at hs
  split at hs
  · cases hs
    exact h.setPhase (h.got hi hapart _)
  · next entry hphase =>
    cases hs
    exact h.setPhase (hcall.compared hphase succeeds)
  · cases hs
    refine h.setPhase ?_
    split
    · refine ⟨fun startedAt heq => ?_, nofun, nofun, fun _ _ => nofun⟩
      cases heq
      exact ⟨h.db.windows.since, le_rfl⟩
    · exact .quiet (fun _ => nofun) rfl fun _ _ => nofun
  · next startedAt hphase =>
    cases hs
    obtain ⟨horigin, hnow⟩ := hcall.compute startedAt hphase
    exact h.setPhase (h.computed horigin hnow succeeds)
  · next quote hphase =>
    cases hs
    have hentry := hcall.held ⟨quote, call.request⟩ (by unfold Call.entry?; rw [hphase])
    have hanswered : CallOk origin env s.db { call with phase := .answered quote } :=
      .quiet (fun _ => nofun) rfl fun _ _ => nofun
    have hphases := h.setPhase (i := i) hanswered
    refine ⟨hphases.db, fun p hp => ?_, hphases.calls⟩
    split at hp
    · rcases List.mem_cons.mp hp with rfl | hp
      · exact hentry
      · exact h.cache p (List.mem_of_mem_filter hp)
    · exact h.cache p hp
  · cases hs
  · cases hs
  · cases hs

theorem mem_entries_of_cache {p : Text × Entry} (h : p ∈ s.cache) : p.2 ∈ s.entries :=
  List.mem_append_left _ (List.mem_map_of_mem h)

theorem mem_entries_of_call {call : Call} {entry : Entry} (h : call ∈ s.calls)
    (hentry : call.entry? = some entry) : entry ∈ s.entries :=
  List.mem_append_right _ (List.mem_filterMap.mpr ⟨call, h, hentry⟩)

theorem Inv.price (h : Inv origin env s) {a : Catalog.Action} {db : Catalog.Database}
    (htime : CommitsInTime env s (.price a)) (hm : Move s.db a db) :
    Inv origin env { s with db := db } := by
  have hentries : ∀ entry ∈ s.entries, EntryOk env s.db entry → EntryOk env db entry := by
    intro entry hentry hok
    refine hok.move h.db hm fun i tx v ids price event ha hi hphase => ?_
    subst ha
    rcases htime tx v ids price event hi hphase with hlarger | hshows
    · exact .inl hlarger
    · exact .inr (hshows entry hentry)
  have hnow : s.db.now ≤ db.now := by
    cases hm with
    | elapse n => exact Nat.le_add_right _ _
    | _ => exact le_rfl
  refine ⟨h.db.step hm, fun p hp => hentries _ (mem_entries_of_cache hp) (h.cache p hp),
    fun call hcall => ?_⟩
  have hok := h.calls call hcall
  refine ⟨fun startedAt hphase => ?_, fun entry hentry =>
    hentries entry (mem_entries_of_call hcall hentry) (hok.held entry hentry), hok.same, hok.hit⟩
  obtain ⟨horigin, hstarted⟩ := hok.compute startedAt hphase
  exact ⟨horigin, hstarted.trans hnow⟩

theorem Inv.step (h : Inv origin env s) {a : Action} (hapart : KeysApart s a)
    (htime : CommitsInTime env s a) (hs : step env s a = some s') : Inv origin env s' := by
  cases a with
  | price action =>
    obtain ⟨db, hstep, rfl⟩ := Option.map_eq_some_iff.mp hs
    exact h.price htime (Catalog.move_of_step hstep)
  | quote request useCache =>
    cases hs
    exact h.start request useCache
  | access i succeeds =>
    obtain ⟨call, hi, hs⟩ := Option.bind_eq_some_iff.mp hs
    exact h.access hi hapart hs
  | drop key =>
    cases hs
    exact ⟨h.db, fun p hp => h.cache p (List.mem_of_mem_filter hp), h.calls⟩

theorem Inv.initial (h : Initial s) : Inv s.db.now env s := by
  have htransactions : ∀ (i : Nat) (tx : Transaction), s.db.transactions[i]? ≠ some tx := by
    rw [h.transactions]
    simp
  refine ⟨⟨⟨?_, ?_⟩, ⟨h.ids, h.next, ?_, ?_⟩, ⟨le_rfl, ?_, ?_, ?_, ?_⟩, h.variants, h.skus⟩,
    ?_, ?_⟩
  · exact fun i _ tx _ _ _ hi => absurd hi (htransactions i tx)
  · exact fun i tx _ hi => absurd hi (htransactions i tx)
  · exact fun i tx hi => absurd hi (htransactions i tx)
  · exact fun i _ tx _ _ _ _ _ hi => absurd hi (htransactions i tx)
  · exact fun p hp hdefault => (h.windows p hp hdefault).1
  · exact fun p hp hdefault => (h.windows p hp hdefault).2
  · exact fun p hp _ _ hdefault _ _ _ => (h.windows p hp hdefault).1
  · rw [h.transactions]
    exact fun tx htx => absurd htx List.not_mem_nil
  · rw [h.cache]
    exact fun p hp => absurd hp List.not_mem_nil
  · rw [h.calls]
    exact fun call hcall => absurd hcall List.not_mem_nil

end Steps

/-- The lines that a call has returned from the cache, each with the price that
`calculate_quote` selects for its SKU in the database in which the version was read. -/
def hitLines (env : Environment) (call : Call) : List (CachedLine × Option Int) :=
  match call.phase with
  | .hit entry read => entry.quote.lines.map fun line =>
    (line, ((selectedPrices env.directory read read.now call.request.tenantId
      call.request.customerId call.request.currencyCode).lookup line.sku).map
        SelectedPrice.unitMinor)
  | _ => []

/-- As long as no update commits under a version of which a quote shows another price, each
line of a quote from the cache has the price that is selected for it. -/
theorem cached_quote_current {env : Environment} {s₀ s : State} (h₀ : Initial s₀)
    (h : Reach (step env) (fun s a => KeysApart s a ∧ CommitsInTime env s a) s₀ s) :
    ∀ call ∈ s.calls, ∀ p ∈ hitLines env call, p.2 = some p.1.unitMinor := by
  intro call hcall p hp
  have hinv : Inv s₀.db.now env s := h.invariant (Inv.initial h₀) fun _ _ _ hi hok hs =>
    hi.step hok.1 hok.2 hs
  unfold hitLines at hp
  split at hp
  · next entry read hphase =>
    obtain ⟨line, hline, rfl⟩ := List.mem_map.mp hp
    obtain ⟨row, hrow, hamount⟩ := (hinv.calls call hcall).hit entry read hphase line hline
    rw [selectedPrices_lookup, hrow, ← hamount]
    rfl
  · cases hp

/-! ## A late commit -/

def shopVariant (sku : String) : Variant := ⟨"acme".toList, sku.toList, "p".toList, sku.toList⟩

def shopPrice (id : Nat) (sku : String) : Price :=
  ⟨id, "acme".toList, sku.toList, "USD".toList, 100, none, 1, none, true⟩

/-- Two SKUs of one tenant. -/
def shopDatabase : Catalog.Database where
  now := 5000
  tenants := [⟨"acme".toList, "USD".toList⟩]
  variants := [shopVariant "a", shopVariant "b"]
  prices := [shopPrice 0 "a", shopPrice 1 "b"]
  events := []
  nextSequence := 1
  nextPrice := 2
  transactions := []

def shopEnvironment : Environment :=
  ⟨⟨[("acme".toList, "p".toList)], [("acme".toList, "ava".toList)]⟩, sampleFormat, []⟩

def shopStart : State := ⟨shopDatabase, [], []⟩

theorem shopStart_initial : Initial shopStart where
  cache := rfl
  calls := rfl
  transactions := rfl
  ids := by decide
  next := by decide
  windows := by
    intro p hp _
    have hp : p ∈ [shopPrice 0 "a", shopPrice 1 "b"] := hp
    rcases List.mem_pair.mp hp with rfl | rfl
    · exact ⟨by decide, nofun⟩
    · exact ⟨by decide, nofun⟩
  variants := by decide
  skus := by decide

def shopBasket : QuoteRequest where
  requestId := []
  tenantId := "acme".toList
  customerId := "ava".toList
  items := [⟨"a".toList, 1⟩]
  currencyCode := "USD".toList
  context := []

def shopUpdate (sku : String) : Action :=
  .price (.begin ⟨"acme".toList, sku.toList, "USD".toList, 200, none⟩)

def statements (transaction n : Nat) : List Action :=
  List.replicate n (.price (.statement transaction))

def accesses (call n : Nat) : List Action := List.replicate n (.access call true)

/-- An entry is met only by the request it was computed for. -/
def meetsOwn (s : State) : Action → Bool
  | .access i _ => (s.calls[i]?).all fun call =>
    (s.cache.lookup (cacheKey call.request)).all fun entry => decide (call.request = entry.origin)
  | _ => true

theorem keysApart_of_meetsOwn {s : State} {a : Action} (h : meetsOwn s a = true) :
    KeysApart s a := by
  cases a with
  | access i succeeds =>
    intro call entry hi hentry
    unfold meetsOwn at h
    simp only [hi, Option.all_some, hentry, decide_eq_true_eq] at h
    rw [h]
    exact .refl _
  | price | quote | drop => trivial

/-- An update commits with a larger sequence number than all that its tenant has. -/
def commitsInOrder (s : State) : Action → Bool
  | .price (.statement i) => (s.db.transactions[i]?).all fun tx =>
    tx.phase.event?.all fun p => decide (maxSequence s.db p.2.2.tenantId < p.2.2.sequence)
  | _ => true

theorem commitsInTime_of_inOrder {env : Environment} {s : State} {a : Action}
    (h : commitsInOrder s a = true) : CommitsInTime env s a := by
  cases a with
  | price action =>
    cases action with
    | statement i =>
      intro tx v ids price event hi hphase
      unfold commitsInOrder at h
      simp only [hi, Option.all_some, hphase, Catalog.Phase.event?, decide_eq_true_eq] at h
      exact .inl h
    | begin | elapse => trivial
  | access | quote | drop => trivial

/-- A basket is quoted after an update, and again. -/
def currentRun : List Action :=
  [shopUpdate "a"] ++ statements 0 5 ++ [.quote shopBasket true] ++ accesses 0 4 ++
    [.quote shopBasket true] ++ accesses 1 2

/-- The update of `a` takes its number before that of `b`, and commits after the basket has
been quoted; the basket is then quoted again. -/
def staleRun : List Action :=
  [shopUpdate "a"] ++ statements 0 4 ++ [shopUpdate "b"] ++ statements 1 5 ++
    [.quote shopBasket true] ++ accesses 0 4 ++ statements 0 1 ++ [.quote shopBasket true] ++
    accesses 1 2

def after (ok : State → Action → Bool) (actions : List Action) : State :=
  (runWhere (step shopEnvironment) ok shopStart actions).getD shopStart

theorem after_reached {ok : State → Action → Bool} {actions : List Action}
    (h : (runWhere (step shopEnvironment) ok shopStart actions).isSome = true) :
    Reach (step shopEnvironment) (fun s a => ok s a = true) shopStart (after ok actions) := by
  obtain ⟨s, hs⟩ := Option.isSome_iff_exists.mp h
  refine reach_of_runWhere (hs.trans ?_)
  unfold after
  rw [hs]
  rfl

def inOrder (s : State) (a : Action) : Bool := meetsOwn s a && commitsInOrder s a

theorem cached_quote_current_shop :
    (∃ call ∈ (after inOrder currentRun).calls, hitLines shopEnvironment call ≠ []) ∧
      ∀ call ∈ (after inOrder currentRun).calls, ∀ p ∈ hitLines shopEnvironment call,
        p.2 = some p.1.unitMinor := by
  refine ⟨by decide +kernel, cached_quote_current shopStart_initial ?_⟩
  refine (after_reached (by decide +kernel)).weaken fun s a hok => ?_
  obtain ⟨hown, horder⟩ := (Bool.and_eq_true _ _).mp hok
  exact ⟨keysApart_of_meetsOwn hown, commitsInTime_of_inOrder horder⟩

/-- A quote of the current version with a price that is no longer selected. -/
theorem stale_quote_served : Initial shopStart ∧
    Reach (step shopEnvironment) KeysApart shopStart (after meetsOwn staleRun) ∧
      ∃ call ∈ (after meetsOwn staleRun).calls, ∃ p ∈ hitLines shopEnvironment call,
        p.2 ≠ some p.1.unitMinor :=
  ⟨shopStart_initial, (after_reached (by decide +kernel)).weaken fun _ _ => keysApart_of_meetsOwn,
    by decide +kernel⟩

end CommercePlayground.Pricing.Versions
