/-
CommercePlayground.Catalog.ReadThroughTheorems — what a query shows after an update.

`TablesInv.shows`: the database shows the price of every committed update, or a later one.
`Inv`: so does every entry of the cache, but for the updates that will delete it yet. An
update that has returned deletes nothing, and so a query that starts then sees its price,
as long as every put is in time (`returned_update_shown`).
-/
import CommercePlayground.Catalog.ReadThrough
import CommercePlayground.Catalog.CacheTheorems

namespace CommercePlayground.Catalog.ReadThrough

open Lib Listing
open Cache (productKey cacheKey evictionPattern TenantKey scanMatches_tenantKey)
open Propagation (CatalogService.normalize CatalogService.resolve CatalogService.fromHeaders)

/-! ## The database -/

/-- Only the price of an update and those of later ones are in force for its variant, and
one is. -/
structure InForce (tables : Tables) (now : Int) (updates : List PriceUpdate) (i : Nat)
    (u : PriceUpdate) : Prop where
  defaults : ∀ p ∈ tables.prices, isPriceOf u.variant u.price.currency p = true →
    p.isDefault = true → ∃ j later, i ≤ j ∧ updates[j]? = some later ∧
      later.variant = u.variant ∧ later.price = p
  valid : ∃ p ∈ tables.prices, isPriceOf u.variant u.price.currency p = true ∧
    p.isDefault = true ∧ p.validFrom ≤ now ∧ p.validTo = none

/-- An update is of a variant of the tables, in the currency of its tenant. -/
structure Registered (tables : Tables) (u : PriceUpdate) : Prop where
  variant : u.variant ∈ tables.variants
  currency : ∃ t ∈ tables.tenants,
    t.id = u.variant.tenantId ∧ t.defaultCurrency = u.price.currency
  normal : CatalogService.normalize u.variant.tenantId = .ok u.variant.tenantId

structure TablesInv (tables : Tables) (now : Int) (updates : List PriceUpdate) : Prop where
  valid : tables.Valid
  registered : ∀ u ∈ updates, Registered tables u
  inForce : ∀ i u, updates[i]? = some u → InForce tables now updates i u

section Database

variable {env : Environment} {tables : Tables} {now : Int} {updates : List PriceUpdate}

theorem isPriceOf_iff {variant : VariantRow} {currency : Text} {p : PriceRow} :
    isPriceOf variant currency p = true ↔
      p.tenantId = variant.tenantId ∧ p.variantId = variant.id ∧ p.currency = currency :=
  decide_eq_true_iff

/-- The row of a variant that an update is of has the price of the update, or a later one. -/
theorem TablesInv.lateralPrice (h : TablesInv tables now updates) {i : Nat} {u : PriceUpdate}
    (hi : updates[i]? = some u) {p : ProductRow} {t : TenantRow} (ht : t ∈ tenantsOf tables p)
    (htenant : p.tenantId = u.variant.tenantId) :
    ∃ j later, i ≤ j ∧ updates[j]? = some later ∧ later.variant = u.variant ∧
      Listing.lateralPrice tables now t p (some u.variant) = some later.price := by
  obtain ⟨htmem, htid⟩ := List.mem_filter.mp ht
  have htid : t.id = p.tenantId := of_decide_eq_true htid
  obtain ⟨t', ht', hid', hcurrency⟩ := (h.registered u (List.mem_of_getElem? hi)).currency
  obtain rfl := h.valid.tenants.eq_of_mem htmem ht' (by rw [htid, hid', htenant])
  have hforce := h.inForce i u hi
  -- the rows that the second lateral join chooses from
  have hrow : ∀ p', p' ∈ tables.prices.filter (fun pr => pr.tenantId = p.tenantId ∧
        (some u.variant).any (pr.variantId = ·.id) ∧ pr.currency = t.defaultCurrency ∧
        pr.isDefault = true ∧ pr.validFrom ≤ now ∧ pr.validTo.all (now < ·)) ↔
      p' ∈ tables.prices ∧ isPriceOf u.variant u.price.currency p' = true ∧
        p'.isDefault = true ∧ p'.validFrom ≤ now ∧ p'.validTo.all (now < ·) = true := by
    intro p'
    rw [List.mem_filter, decide_eq_true_eq, isPriceOf_iff, htenant, hcurrency, Option.any_some,
      decide_eq_true_eq]
    simp only [and_assoc]
  cases hhead : Listing.lateralPrice tables now t p (some u.variant) with
  | none =>
    obtain ⟨q, hq, hof, hdefault, hfrom, hto⟩ := hforce.valid
    have hmem := (hrow q).mpr ⟨hq, hof, hdefault, hfrom, by rw [hto]; rfl⟩
    have hsome := (isSome_head?_insertionSort (fun a b : PriceRow => b.validFrom ≤ a.validFrom)
      _).mpr ⟨q, hmem⟩
    unfold Listing.lateralPrice at hhead
    rw [hhead] at hsome
    cases hsome
  | some q =>
    have hq := List.mem_of_mem_head? hhead
    rw [List.mem_insertionSort] at hq
    obtain ⟨hmem, hof, hdefault, -⟩ := (hrow q).mp hq
    obtain ⟨j, later, hij, hj, hvariant, rfl⟩ := hforce.defaults q hmem hof hdefault
    exact ⟨j, later, hij, hj, hvariant, rfl⟩

/-- A row of a query shows the price of every update, or a later one. -/
theorem TablesInv.row (h : TablesInv tables now updates) {sku : Option Text} {row : ResultRow}
    (hrow : row ∈ productFrom env.collation tables now sku) {i : Nat} {u : PriceUpdate}
    (hi : updates[i]? = some u) (hof : IsOf u (mapProduct row)) :
    ∃ j later, i ≤ j ∧ updates[j]? = some later ∧ later.variant = u.variant ∧
      (mapProduct row).price = some (snapshot later.price) := by
  obtain ⟨p, hp, hrow⟩ := List.mem_flatMap.mp hrow
  obtain ⟨t, ht, hrow⟩ := List.mem_flatMap.mp hrow
  obtain ⟨c, hc, rfl⟩ := List.mem_map.mp hrow
  obtain ⟨htenant, hsku⟩ := hof
  have htenant : p.tenantId = u.variant.tenantId := Option.some.inj htenant
  obtain ⟨pv, hpv, hpvSku⟩ := Option.map_eq_some_iff.mp hsku
  have hpv : lateralVariant env.collation tables p sku = some pv := hpv
  -- the SKU names one variant of the tenant
  have hmem : pv ∈ tables.variants ∧ pv.tenantId = p.tenantId := by
    unfold lateralVariant at hpv
    have hhead := List.mem_of_mem_head? hpv
    rw [List.mem_insertionSort, List.mem_filter] at hhead
    exact ⟨hhead.1, (of_decide_eq_true hhead.2).1⟩
  obtain rfl := h.valid.skus.eq_of_mem hmem.1 (h.registered u (List.mem_of_getElem? hi)).variant
    (Prod.ext (hmem.2.trans htenant) hpvSku)
  obtain ⟨j, later, hij, hj, hvariant, hprice⟩ := h.lateralPrice hi ht htenant
  refine ⟨j, later, hij, hj, hvariant, ?_⟩
  simp only [mapProduct, mapPrice, hpv, hprice]
  rfl

theorem optionalRow_some {rows : List ResultRow} {product : Product}
    (h : optionalRow rows = .ok (some product)) : ∃ row ∈ rows, mapProduct row = product := by
  cases rows with
  | nil => cases h
  | cons row rest =>
    cases rest with
    | nil =>
      cases h
      exact ⟨row, List.mem_cons_self, rfl⟩
    | cons other rest => cases h

/-- What a query reads are rows of its tenant. -/
theorem read_rows {query : Query} {entry : Entry}
    (hread : query.read env tables now = .ok (some entry)) :
    ∀ product ∈ entry.products, ∃ sku, ∃ row ∈ productFrom env.collation tables now sku,
      mapProduct row = product ∧
        CatalogService.normalize query.tenant = .ok row.product.tenantId := by
  intro product hproduct
  cases query with
  | product tenant sku =>
    obtain ⟨found, hfound, hentry⟩ := bind_ok hread
    obtain ⟨product', rfl, rfl⟩ := Option.map_eq_some_iff.mp (Except.ok.inj hentry)
    obtain rfl := List.mem_singleton.mp hproduct
    obtain ⟨tenantId, hnormal, hfound⟩ := bind_ok hfound
    obtain ⟨row, hrow, rfl⟩ := optionalRow_some hfound
    obtain ⟨hrow, htenant, -⟩ := mem_skuRows.mp hrow
    exact ⟨some sku, row, hrow, rfl, htenant ▸ hnormal⟩
  | products call =>
    obtain ⟨page, hpage, hentry⟩ := bind_ok hread
    cases hentry
    obtain ⟨tenantId, hnormal, hpage⟩ := bind_ok hpage
    obtain ⟨rows, hrows, hpage⟩ := bind_ok hpage
    cases hpage
    obtain ⟨row, hrow, rfl⟩ := List.mem_map.mp hproduct
    obtain ⟨-, -, rfl⟩ := selectPage_ok.mp hrows
    have hrow := List.mem_of_mem_drop (List.mem_of_mem_take hrow)
    rw [List.mem_insertionSort] at hrow
    obtain ⟨hrow, hlisted⟩ := List.mem_filter.mp hrow
    simp only [listed, Bool.and_eq_true, decide_eq_true_eq] at hlisted
    exact ⟨none, row, hrow, rfl, hlisted.1.1.1 ▸ hnormal⟩

/-- What a query reads shows the price of every update, or a later one. -/
theorem TablesInv.read (h : TablesInv tables now updates) {query : Query} {entry : Entry}
    (hread : query.read env tables now = .ok (some entry)) (i : Nat) :
    entry.Shows updates i := by
  intro u hi product hproduct hof
  obtain ⟨sku, row, hrow, rfl, -⟩ := read_rows hread product hproduct
  exact h.row hrow hi hof

/-- What a transaction of an update that commits has found and written. -/
theorem updatePrice_ok {command : PriceUpdateCommand} {startedAt : Int} {priceId : Text}
    {u : PriceUpdate} {tables' : Tables}
    (h : updatePrice tables command startedAt priceId = .ok (u, tables')) :
    Registered tables u ∧ u.price = newPrice command u.variant startedAt priceId ∧
      tables' = writePrice tables u.variant u.price := by
  obtain ⟨tenantId, hnormal, h⟩ := bind_ok h
  split at h
  · cases h
  · next tenant htenant =>
    obtain ⟨htmem, htid⟩ := find?_some_spec htenant
    split at h
    · cases h
    · next hcurrency =>
      rw [not_not] at hcurrency
      split at h
      · cases h
      · next variant hvariant =>
        obtain ⟨hvmem, hkey⟩ := find?_some_spec hvariant
        obtain ⟨hvtenant, -, -⟩ := of_decide_eq_true hkey
        simp only at h
        split at h
        · cases h
          have hnormal := normalize_idem hnormal
          rw [← hvtenant] at hnormal
          exact ⟨⟨hvmem, ⟨tenant, htmem, (of_decide_eq_true htid).trans hvtenant.symm, hcurrency⟩,
            hnormal⟩, rfl, rfl⟩
        · cases h

theorem mem_writePrice {variant : VariantRow} {price p : PriceRow} :
    p ∈ (writePrice tables variant price).prices ↔
      (∃ q ∈ tables.prices, p = if isPriceOf variant price.currency q && q.isDefault then
        expirePrice price.validFrom q else q) ∨ p = price := by
  unfold writePrice
  rw [List.mem_append, List.mem_singleton, mem_updateWhere]

theorem getElem?_append_left {i : Nat} {u new : PriceUpdate} (hi : updates[i]? = some u) :
    (updates ++ [new])[i]? = some u := by
  obtain ⟨hlt, -⟩ := List.getElem?_eq_some_iff.mp hi
  rw [List.getElem?_append_left hlt, hi]

/-- An update in force stays so, if the new one is counted in. -/
theorem InForce.write {i : Nat} {u new : PriceUpdate} (h : InForce tables now updates i u)
    (hi : updates[i]? = some u) {command : PriceUpdateCommand} {startedAt : Int}
    (hnow : startedAt ≤ now) {priceId : Text}
    (hprice : new.price = newPrice command new.variant startedAt priceId)
    (hsame : u.variant.tenantId = new.variant.tenantId → u.variant.id = new.variant.id →
      u.variant = new.variant) :
    InForce (writePrice tables new.variant new.price) now (updates ++ [new]) i u := by
  have hnew : new.price.tenantId = new.variant.tenantId ∧
      new.price.variantId = new.variant.id := by
    rw [hprice]
    exact ⟨rfl, rfl⟩
  cases hkey : isPriceOf u.variant u.price.currency new.price with
  | true =>
    obtain ⟨htenant, hid, hcurrency⟩ := isPriceOf_iff.mp hkey
    have hvariant := hsame (htenant.symm.trans hnew.1) (hid.symm.trans hnew.2)
    refine ⟨fun p hp hof hdefault => ?_, new.price, mem_writePrice.mpr (.inr rfl), hkey,
      ?_, ?_, ?_⟩
    · rcases mem_writePrice.mp hp with ⟨q, -, rfl⟩ | rfl
      · split at hdefault
        · cases hdefault
        · next hother =>
          rw [if_neg hother, hvariant, ← hcurrency] at hof
          exact absurd (by rw [hof, hdefault]; rfl) hother
      · obtain ⟨hlt, -⟩ := List.getElem?_eq_some_iff.mp hi
        exact ⟨updates.length, new, Nat.le_of_lt hlt, List.getElem?_concat_length, hvariant.symm,
          rfl⟩
    · rw [hprice]
      rfl
    · rw [hprice]
      exact hnow
    · rw [hprice]
      rfl
  | false =>
    refine ⟨fun p hp hof hdefault => ?_, ?_⟩
    · rcases mem_writePrice.mp hp with ⟨q, hq, rfl⟩ | rfl
      · split at hdefault
        · cases hdefault
        · next hother =>
          rw [if_neg hother] at hof ⊢
          obtain ⟨j, later, hij, hj, hvariant, rfl⟩ := h.defaults q hq hof hdefault
          exact ⟨j, later, hij, getElem?_append_left hj, hvariant, rfl⟩
      · rw [hof] at hkey
        cases hkey
    · obtain ⟨q, hq, hof, hdefault, hfrom, hto⟩ := h.valid
      refine ⟨q, mem_writePrice.mpr (.inl ⟨q, hq, (if_neg fun hreplaced => ?_).symm⟩), hof,
        hdefault, hfrom, hto⟩
      -- a row of both would make the two one variant in one currency
      rw [Bool.and_eq_true] at hreplaced
      obtain ⟨htenant, hid, hcurrency⟩ := isPriceOf_iff.mp hof
      obtain ⟨htenant', hid', hcurrency'⟩ := isPriceOf_iff.mp hreplaced.1
      have hboth : isPriceOf u.variant u.price.currency new.price = true :=
        isPriceOf_iff.mpr ⟨hnew.1.trans (htenant'.symm.trans htenant),
          hnew.2.trans (hid'.symm.trans hid), hcurrency'.symm.trans hcurrency⟩
      rw [hboth] at hkey
      cases hkey

/-- The new update is in force. -/
theorem inForce_new {new : PriceUpdate} {command : PriceUpdateCommand} {startedAt : Int}
    (hnow : startedAt ≤ now) {priceId : Text}
    (hprice : new.price = newPrice command new.variant startedAt priceId) :
    InForce (writePrice tables new.variant new.price) now (updates ++ [new]) updates.length
      new := by
  have hof : isPriceOf new.variant new.price.currency new.price = true := by
    rw [hprice]
    exact isPriceOf_iff.mpr ⟨rfl, rfl, rfl⟩
  refine ⟨fun p hp hofp hdefault => ?_, new.price, mem_writePrice.mpr (.inr rfl), hof, ?_, ?_, ?_⟩
  · rcases mem_writePrice.mp hp with ⟨q, -, rfl⟩ | rfl
    · split at hdefault
      · cases hdefault
      · next hother =>
        rw [if_neg hother] at hofp
        exact absurd (by rw [hofp, hdefault]; rfl) hother
    · exact ⟨updates.length, new, Nat.le_refl _, List.getElem?_concat_length, rfl, rfl⟩
  · rw [hprice]
    rfl
  · rw [hprice]
    exact hnow
  · rw [hprice]
    rfl

/-- An update that commits keeps the prices of the others. -/
theorem TablesInv.update (h : TablesInv tables now updates) {command : PriceUpdateCommand}
    {startedAt : Int} (hnow : startedAt ≤ now) {priceId : Text} {new : PriceUpdate}
    {tables' : Tables} (hok : updatePrice tables command startedAt priceId = .ok (new, tables')) :
    TablesInv tables' now (updates ++ [new]) := by
  obtain ⟨hnew, hprice, rfl⟩ := updatePrice_ok hok
  have hregistered : ∀ u ∈ updates ++ [new], Registered tables u := by
    intro u hu
    rcases List.mem_append.mp hu with hu | hu
    · exact h.registered u hu
    · rw [List.mem_singleton.mp hu]
      exact hnew
  refine ⟨⟨h.valid.tenants, h.valid.categories, h.valid.products, h.valid.variants, h.valid.skus,
    h.valid.productTenant, h.valid.productCategory, h.valid.variantProduct⟩,
    fun u hu => ⟨(hregistered u hu).variant, (hregistered u hu).currency,
      (hregistered u hu).normal⟩, fun i u hi => ?_⟩
  by_cases hlt : i < updates.length
  · rw [List.getElem?_append_left hlt] at hi
    refine (h.inForce i u hi).write hi hnow hprice fun _ hid => ?_
    exact h.valid.variants.eq_of_mem (h.registered u (List.mem_of_getElem? hi)).variant
      hnew.variant hid
  · obtain ⟨hlength, -⟩ := List.getElem?_eq_some_iff.mp hi
    rw [List.length_append, List.length_singleton] at hlength
    obtain rfl : i = updates.length := by omega
    rw [List.getElem?_concat_length] at hi
    cases hi
    exact inForce_new hnow hprice

theorem TablesInv.elapse (h : TablesInv tables now updates) {n : Nat} :
    TablesInv tables (now + n) updates := by
  refine ⟨h.valid, h.registered, fun i u hi => ⟨(h.inForce i u hi).defaults, ?_⟩⟩
  obtain ⟨p, hp, hof, hdefault, hfrom, hto⟩ := (h.inForce i u hi).valid
  exact ⟨p, hp, hof, hdefault, by omega, hto⟩

end Database

/-! ## Entries -/

theorem getElem?_updates {s : State} {j : Nat} {w : Writer} (h : s.writers[j]? = some w) :
    s.updates[j]? = some w.update := by
  unfold State.updates
  rw [List.getElem?_map, h]
  rfl

/-- What an update shows, it shows after another one. -/
theorem Entry.Shows.append {entry : Entry} {updates : List PriceUpdate} {new : PriceUpdate}
    {i : Nat} (h : entry.Shows updates i) (hi : i < updates.length) :
    entry.Shows (updates ++ [new]) i := by
  intro u hu product hproduct hof
  rw [List.getElem?_append_left hi] at hu
  obtain ⟨j, later, hij, hj, hvariant, hprice⟩ := h u hu product hproduct hof
  exact ⟨j, later, hij, getElem?_append_left hj, hvariant, hprice⟩

/-- The key of an entry is one of the tenant of what it shows. -/
def KeyedFor (key : Text) (entry : Entry) : Prop :=
  ∀ product ∈ entry.products, ∀ t, product.tenantId = some t → TenantKey t key

theorem keyedFor_of_read {env : Environment} {tables : Tables} {now : Int} {query : Query}
    {key : Text} {entry : Entry} (hkey : query.key = .ok key)
    (hnormal : CatalogService.normalize query.tenant = .ok query.tenant)
    (hread : query.read env tables now = .ok (some entry)) : KeyedFor key entry := by
  intro product hproduct t ht
  obtain ⟨sku, row, -, rfl, htenant⟩ := read_rows hread product hproduct
  obtain rfl := Option.some.inj ht
  rw [hnormal] at htenant
  cases query with
  | product tenant sku =>
    obtain ⟨tenantId, hnormal', hkey⟩ := bind_ok hkey
    cases hkey
    cases hnormal'.symm.trans (hnormal.trans htenant)
    exact .product sku
  | products call => exact .page call key (Except.ok.inj htenant) hkey

/-- An entry that shows the SKU of an update without its price is found by the scan. -/
theorem mem_scan {s : State} {key : Text} {entry : Entry} (hmem : (key, entry) ∈ s.cache)
    (hkeyed : KeyedFor key entry) {u : PriceUpdate}
    (hnormal : CatalogService.normalize u.variant.tenantId = .ok u.variant.tenantId)
    {product : Product} (hproduct : product ∈ entry.products) (hof : IsOf u product) :
    key ∈ s.scan u.variant.tenantId := by
  have htenant := hkeyed product hproduct _ hof.1
  unfold State.scan
  cases hpattern : evictionPattern u.variant.tenantId with
  | error e =>
    unfold evictionPattern at hpattern
    rw [hnormal] at hpattern
    cases hpattern
  | ok pattern =>
    exact List.mem_filter.mpr ⟨List.mem_map_of_mem hmem,
      scanMatches_tenantKey hpattern hnormal htenant⟩

/-! ## The invariant -/

/-- An entry shows the price of every update that will not delete it. -/
structure EntryOk (s : State) (key : Text) (entry : Entry) : Prop where
  keyed : KeyedFor key entry
  shows : ∀ (j : Nat) (w : Writer), s.writers[j]? = some w →
    entry.Shows s.updates j ∨ w.eviction.Pending key

/-- What a query has read, and what it answers. -/
structure CallOk (s : State) (call : Call) : Prop where
  key : call.query.key = .ok call.key
  normal : CatalogService.normalize call.query.tenant = .ok call.query.tenant
  returned : ∀ i ∈ call.returned, ∃ w, s.writers[i]? = some w ∧ w.eviction = .returned
  put : ∀ entry version, call.phase = .put entry version → KeyedFor call.key entry ∧
    version ≤ s.writers.length ∧ (∀ i < version, entry.Shows s.updates i) ∧
      ∀ i ∈ call.returned, i < version
  answered : ∀ entry, call.phase = .answered (some entry) →
    ∀ i ∈ call.returned, entry.Shows s.updates i

structure Inv (s : State) : Prop where
  tables : TablesInv s.tables s.now s.updates
  cache : ∀ p ∈ s.cache, EntryOk s p.1 p.2
  calls : ∀ call ∈ s.calls, CallOk s call

/-- The updates of a state are those of the other, and more. -/
structure Grown (s s' : State) : Prop where
  length : s.writers.length ≤ s'.writers.length
  returned : ∀ (i : Nat) (w : Writer), s.writers[i]? = some w → w.eviction = .returned →
    ∃ w', s'.writers[i]? = some w' ∧ w'.eviction = .returned
  shows : ∀ (i : Nat) (entry : Entry), i < s.writers.length → entry.Shows s.updates i →
    entry.Shows s'.updates i

theorem Grown.of_eq {s s' : State} (h : s'.writers = s.writers) : Grown s s' := by
  refine ⟨by rw [h], fun i w hi hw => ⟨w, by rw [h]; exact hi, hw⟩, fun i entry _ hshows => ?_⟩
  unfold State.updates
  rw [h]
  exact hshows

theorem CallOk.grown {s s' : State} {call : Call} (h : CallOk s call) (hgrown : Grown s s') :
    CallOk s' call := by
  have hlt : ∀ i ∈ call.returned, i < s.writers.length := by
    intro i hi
    obtain ⟨w, hw, -⟩ := h.returned i hi
    exact (List.getElem?_eq_some_iff.mp hw).1
  refine ⟨h.key, h.normal, fun i hi => ?_, fun entry version hphase => ?_, fun entry hphase i hi =>
    hgrown.shows i entry (hlt i hi) (h.answered entry hphase i hi)⟩
  · obtain ⟨w, hw, heviction⟩ := h.returned i hi
    exact hgrown.returned i w hw heviction
  · obtain ⟨hkeyed, hversion, hshows, hreturned⟩ := h.put entry version hphase
    exact ⟨hkeyed, hversion.trans hgrown.length, fun i hi =>
      hgrown.shows i entry (Nat.lt_of_lt_of_le hi hversion) (hshows i hi), hreturned⟩

theorem EntryOk.congr {s s' : State} {key : Text} {entry : Entry} (h : EntryOk s key entry)
    (heq : s'.writers = s.writers) : EntryOk s' key entry := by
  refine ⟨h.keyed, ?_⟩
  unfold State.updates
  rw [heq]
  exact h.shows

section Steps

variable {env : Environment} {s s' : State}

/-- A query goes on. -/
theorem Inv.setPhase (h : Inv s) {i : Nat} {call : Call} {phase : Phase}
    (hcall : CallOk s { call with phase := phase }) : Inv (s.setPhase i call phase) := by
  refine ⟨h.tables, fun p hp => (h.cache p hp).congr rfl, fun call' hcall' => ?_⟩
  rcases List.mem_or_eq_of_mem_set hcall' with hold | rfl
  · exact (h.calls call' hold).grown (.of_eq rfl)
  · exact hcall.grown (.of_eq rfl)

theorem Query.normal {request : Request} {query : Query} (h : request.query env = .ok query) :
    CatalogService.normalize query.tenant = .ok query.tenant := by
  cases request with
  | product headers tenantId sku =>
    obtain ⟨tenant, htenant, h⟩ := bind_ok h
    cases h
    exact resolve_normal htenant
  | products request =>
    obtain ⟨call, hcall, h⟩ := bind_ok h
    cases h
    exact (products_formed hcall).tenant

theorem Inv.start (h : Inv s) (request : Request) (noStore : Bool) :
    Inv (start env request noStore s) := by
  unfold ReadThrough.start
  split
  · exact h
  · next query hquery =>
    split
    · exact h
    · next key hkey =>
      refine ⟨h.tables, fun p hp => (h.cache p hp).congr rfl, fun call hcall => ?_⟩
      rcases List.mem_append.mp hcall with hcall | hcall
      · exact (h.calls call hcall).grown (.of_eq rfl)
      · rw [List.mem_singleton.mp hcall]
        refine ⟨hkey, Query.normal hquery, fun i hi => ?_, fun entry version hphase => ?_,
          fun entry hphase => ?_⟩
        · have hany := (List.mem_filter.mp hi).2
          obtain ⟨w, hw, heviction⟩ := (Option.any_eq_true _ _).mp hany
          exact ⟨w, hw, of_decide_eq_true heviction⟩
        · cases noStore <;> cases hphase
        · cases noStore <;> cases hphase

/-- A phase that holds no entry. -/
theorem CallOk.quiet {call : Call} (h : CallOk s call) {phase : Phase}
    (hput : ∀ entry version, phase ≠ .put entry version)
    (hanswered : ∀ entry, phase ≠ .answered (some entry)) :
    CallOk s { call with phase := phase } := by
  refine ⟨h.key, h.normal, h.returned, fun entry version hphase => ?_, fun entry hphase => ?_⟩
  · exact absurd hphase (hput entry version)
  · exact absurd hphase (hanswered entry)

/-- A hit is an entry of the cache, which no update that has returned will delete. -/
theorem CallOk.hit {call : Call} (h : CallOk s call) (hcache : ∀ p ∈ s.cache, EntryOk s p.1 p.2)
    {entry : Entry} (hget : s.get call = some entry) :
    CallOk s { call with phase := .answered (some entry) } := by
  unfold State.get at hget
  have hmem := mem_of_lookup (Option.filter_eq_some_iff.mp hget).1
  refine ⟨h.key, h.normal, h.returned, fun entry' version hphase => ?_,
    fun entry' hphase i hi => ?_⟩
  · cases hphase
  cases hphase
  obtain ⟨w, hw, heviction⟩ := h.returned i hi
  rcases (hcache _ hmem).shows i w hw with hshows | hpending
  · exact hshows
  · rw [heviction] at hpending
    exact absurd hpending id

/-- What is read shows every update that has committed. -/
theorem CallOk.read {call : Call} (h : CallOk s call)
    (htables : TablesInv s.tables s.now s.updates) {entry : Entry}
    (hread : call.query.read env s.tables s.now = .ok (some entry)) :
    CallOk s { call with
      phase := if call.noStore then .answered (some entry)
        else .put entry s.writers.length } := by
  refine ⟨h.key, h.normal, h.returned, fun entry' version hphase => ?_,
    fun entry' hphase i _ => ?_⟩
  · cases hstore : call.noStore with
    | true =>
      rw [hstore] at hphase
      cases hphase
    | false =>
      rw [hstore] at hphase
      cases hphase
      refine ⟨keyedFor_of_read h.key h.normal hread, Nat.le_refl _,
        fun i _ => htables.read hread i, fun i hi => ?_⟩
      obtain ⟨w, hw, -⟩ := h.returned i hi
      exact (List.getElem?_eq_some_iff.mp hw).1
  · cases hstore : call.noStore with
    | true =>
      rw [hstore] at hphase
      cases hphase
      exact htables.read hread i
    | false =>
      rw [hstore] at hphase
      cases hphase

/-- A put in time. -/
theorem Inv.put (h : Inv s) {i : Nat} {call : Call} {entry : Entry} {version : Nat}
    (hcall : CallOk s call) (hphase : call.phase = .put entry version)
    (htime : ∀ (j : Nat) (w : Writer), version ≤ j → s.writers[j]? = some w →
      (∃ product ∈ entry.products, IsOf w.update product) → w.eviction.Pending call.key) :
    Inv { s.setPhase i call (.answered (some entry)) with
      cache := put call.key entry s.cache } := by
  obtain ⟨hkeyed, hversion, hshows, hreturned⟩ := hcall.put entry version hphase
  have hnew : EntryOk s call.key entry := by
    refine ⟨hkeyed, fun j w hw => ?_⟩
    by_cases hj : j < version
    · exact .inl (hshows j hj)
    · by_cases hof : ∃ product ∈ entry.products, IsOf w.update product
      · exact .inr (htime j w (not_lt.mp hj) hw hof)
      · refine .inl fun u hu product hproduct hou => absurd ⟨product, hproduct, ?_⟩ hof
        rw [getElem?_updates hw] at hu
        cases hu
        exact hou
  have hanswered : CallOk s { call with phase := .answered (some entry) } := by
    refine ⟨hcall.key, hcall.normal, hcall.returned, fun entry' version heq => ?_,
      fun entry' heq i hi => ?_⟩
    · cases heq
    · cases heq
      exact hshows i (hreturned i hi)
  have hphases := h.setPhase (i := i) hanswered
  refine ⟨hphases.tables, fun p hp => ?_, fun call' hcall' =>
    (hphases.calls call' hcall').grown (.of_eq rfl)⟩
  rcases List.mem_cons.mp hp with rfl | hp
  · exact hnew.congr rfl
  · exact (h.cache p (List.mem_filter.mp hp).1).congr rfl

theorem Inv.access (h : Inv s) {i : Nat} {call : Call} (hi : s.calls[i]? = some call)
    (htime : PutsInTime s (.access i)) (hs : access env s i call = some s') : Inv s' := by
  have hcall := h.calls call (List.mem_of_getElem? hi)
  have hread : CallOk s { call with phase := .read } :=
    hcall.quiet (fun _ _ => by simp) fun _ => by simp
  have hnone : CallOk s { call with phase := .answered none } :=
    hcall.quiet (fun _ _ => by simp) fun _ => by simp
  have hfailed : ∀ message, CallOk s { call with phase := .failed message } := fun message =>
    hcall.quiet (fun _ _ => by simp) fun _ => by simp
  unfold ReadThrough.access at hs
  split at hs
  · split at hs
    · next entry hget =>
      cases hs
      exact h.setPhase (hcall.hit h.cache hget)
    · cases hs
      exact h.setPhase hread
  · split at hs
    · cases hs
      exact h.setPhase (hfailed _)
    · cases hs
      exact h.setPhase hnone
    · next entry hentry =>
      have hread := hcall.read h.tables hentry
      split at hs
      · next hstore =>
        cases hs
        rw [if_pos hstore] at hread
        exact h.setPhase hread
      · next hstore =>
        cases hs
        rw [if_neg hstore] at hread
        exact h.setPhase hread
  · next entry version hphase =>
    cases hs
    exact h.put hcall hphase (htime call entry version hi hphase)
  · cases hs
  · cases hs

/-- A new update has yet to delete every entry. -/
theorem Inv.update (h : Inv s) {command : PriceUpdateCommand} {startedAt : Int}
    (hnow : startedAt ≤ s.now) (priceId : Text) :
    Inv (update command startedAt priceId s) := by
  unfold ReadThrough.update
  split
  · exact h
  · next new tables hok =>
    have hupdates : ∀ t : State, t.writers = s.writers ++ [⟨new, .committed⟩] →
        t.updates = s.updates ++ [new] := by
      intro t ht
      unfold State.updates
      rw [ht, List.map_append]
      rfl
    have hlength : s.updates.length = s.writers.length := List.length_map _
    have hgrown : Grown s
        { s with tables := tables, writers := s.writers ++ [⟨new, .committed⟩] } := by
      refine ⟨by simp, fun i w hi hw => ⟨w, ?_, hw⟩, fun i entry hi hshows => ?_⟩
      · rw [List.getElem?_append_left (List.getElem?_eq_some_iff.mp hi).1]
        exact hi
      · rw [hupdates _ rfl]
        exact hshows.append (by rw [hlength]; exact hi)
    refine ⟨?_, fun p hp => ⟨(h.cache p hp).keyed, fun j w hw => ?_⟩,
      fun call hcall => (h.calls call hcall).grown hgrown⟩
    · rw [hupdates _ rfl]
      exact h.tables.update hnow hok
    · by_cases hj : j < s.writers.length
      · have hw : (s.writers ++ [⟨new, .committed⟩])[j]? = some w := hw
        rw [List.getElem?_append_left hj] at hw
        exact ((h.cache p hp).shows j w hw).imp (hgrown.shows j p.2 hj) id
      · have hw : (s.writers ++ [⟨new, .committed⟩])[j]? = some w := hw
        rw [List.getElem?_append_right (not_lt.mp hj)] at hw
        obtain rfl := List.mem_singleton.mp (List.mem_of_getElem? hw)
        exact .inr trivial

theorem updates_setEviction {j : Nat} {w : Writer} (hj : s.writers[j]? = some w)
    (eviction : Eviction) : (s.setEviction j w eviction).updates = s.updates := by
  have hset : (s.writers.map Writer.update).set j w.update = s.writers.map Writer.update := by
    refine List.ext_getElem? fun k => ?_
    by_cases hk : j = k
    · subst hk
      rw [List.getElem?_set_self', List.getElem?_map, hj]
      rfl
    · rw [List.getElem?_set_ne hk]
  unfold State.updates State.setEviction
  rw [List.map_set]
  exact hset

/-- The eviction of an update goes on. -/
theorem getElem?_setEviction {j k : Nat} {w w' : Writer} {eviction : Eviction}
    (hk : (s.setEviction j w eviction).writers[k]? = some w') :
    (k = j ∧ w' = { w with eviction := eviction }) ∨ s.writers[k]? = some w' := by
  have hk : (s.writers.set j { w with eviction := eviction })[k]? = some w' := hk
  by_cases hkj : j = k
  · subst hkj
    rw [List.getElem?_set_self'] at hk
    obtain ⟨old, -, rfl⟩ := Option.map_eq_some_iff.mp hk
    exact .inl ⟨rfl, rfl⟩
  · rw [List.getElem?_set_ne hkj] at hk
    exact .inr hk

theorem Grown.setEviction {j : Nat} {w : Writer} (hj : s.writers[j]? = some w)
    (hopen : w.eviction ≠ .returned) (eviction : Eviction) :
    Grown s (s.setEviction j w eviction) := by
  have hlength : (s.setEviction j w eviction).writers.length = s.writers.length :=
    List.length_set
  refine ⟨by rw [hlength], fun k w' hk hreturned => ⟨w', ?_, hreturned⟩,
    fun i entry _ hshows => ?_⟩
  · have hkj : j ≠ k := by
      rintro rfl
      cases hj.symm.trans hk
      exact hopen hreturned
    show (s.writers.set j _)[k]? = some w'
    rw [List.getElem?_set_ne hkj]
    exact hk
  · rw [updates_setEviction hj]
    exact hshows

/-- An eviction that goes on deletes what it has to, or will. -/
theorem Inv.setEviction (h : Inv s) {j : Nat} {w : Writer} (hj : s.writers[j]? = some w)
    (hopen : w.eviction ≠ .returned) {eviction : Eviction} {cache : List (Text × Entry)}
    (hsub : ∀ p ∈ cache, p ∈ s.cache)
    (hpending : ∀ p ∈ cache, w.eviction.Pending p.1 →
      p.2.Shows s.updates j ∨ eviction.Pending p.1) :
    Inv { s.setEviction j w eviction with cache := cache } := by
  have hupdates := updates_setEviction hj eviction
  have hgrown := Grown.setEviction hj hopen eviction
  refine ⟨?_, fun p hp => ⟨(h.cache p (hsub p hp)).keyed, fun k w' hk => ?_⟩, fun call hcall =>
    ((h.calls call hcall).grown hgrown).grown (.of_eq rfl)⟩
  · show TablesInv s.tables s.now (s.setEviction j w eviction).updates
    rw [hupdates]
    exact h.tables
  · show p.2.Shows (s.setEviction j w eviction).updates k ∨ _
    rw [hupdates]
    rcases getElem?_setEviction hk with ⟨rfl, rfl⟩ | hk
    · rcases (h.cache p (hsub p hp)).shows k w hj with hshows | hpend
      · exact .inl hshows
      · exact hpending p hp hpend
    · exact (h.cache p (hsub p hp)).shows k w' hk

theorem Inv.evict (h : Inv s) {j : Nat} {w : Writer} (hj : s.writers[j]? = some w)
    (hs : evict s j w = some s') : Inv s' := by
  have hsub : ∀ keys, ∀ p ∈ delete keys s.cache, p ∈ s.cache := fun keys p hp =>
    (List.mem_filter.mp hp).1
  unfold ReadThrough.evict at hs
  simp only at hs
  split at hs
  · next hphase =>
    cases hs
    exact h.setEviction hj (by rw [hphase]; simp) (hsub _) fun _ _ _ => .inr trivial
  · next hphase =>
    cases hs
    have hscan : Inv { s.setEviction j w (.scanned (s.scan w.update.variant.tenantId)) with
        cache := s.cache } := by
      refine h.setEviction hj (by rw [hphase]; simp) (fun _ hp => hp) fun p hp _ => ?_
      -- the scan finds what does not show the update
      by_cases hof : ∃ product ∈ p.2.products, IsOf w.update product
      · obtain ⟨product, hproduct, hof⟩ := hof
        have hregistered := h.tables.registered _ (List.mem_of_getElem? (getElem?_updates hj))
        have hnormal := hregistered.normal
        exact .inr (mem_scan hp (h.cache p hp).keyed hnormal hproduct hof)
      · refine .inl fun u hu product hproduct hou => absurd ⟨product, hproduct, ?_⟩ hof
        rw [getElem?_updates hj] at hu
        cases hu
        exact hou
    exact hscan
  · next keys hphase =>
    cases hs
    refine h.setEviction hj (by rw [hphase]; simp) (hsub _) fun p hp hpending => ?_
    rw [hphase] at hpending
    have hkept := (List.mem_filter.mp hp).2
    rw [Bool.not_eq_true', ← Bool.not_eq_true, List.contains_iff_mem] at hkept
    exact absurd hpending hkept
  · cases hs

theorem Inv.step (h : Inv s) {a : Action} (htime : PutsInTime s a)
    (hs : step env s a = some s') : Inv s' := by
  cases a with
  | query request noStore =>
    cases hs
    exact h.start request noStore
  | access i =>
    obtain ⟨call, hi, hs⟩ := Option.bind_eq_some_iff.mp hs
    exact h.access hi htime hs
  | update command startedAt priceId =>
    simp only [ReadThrough.step] at hs
    split at hs
    · next hok =>
      rw [Bool.and_eq_true, decide_eq_true_eq] at hok
      cases hs
      exact h.update hok.2 priceId
    · cases hs
  | evict j =>
    obtain ⟨w, hj, hs⟩ := Option.bind_eq_some_iff.mp hs
    exact h.evict hj hs
  | elapse n =>
    cases hs
    exact ⟨h.tables.elapse, fun p hp => (h.cache p hp).congr rfl, fun call hcall =>
      (h.calls call hcall).grown (.of_eq rfl)⟩

theorem Inv.initial (h : Initial s) : Inv s := by
  have hupdates : s.updates = [] := by
    unfold State.updates
    rw [h.writers]
    rfl
  refine ⟨⟨h.valid, ?_, ?_⟩, ?_, ?_⟩
  · rw [hupdates]
    exact fun u hu => absurd hu List.not_mem_nil
  · rw [hupdates]
    intro i u hu
    cases hu
  · rw [h.cache]
    exact fun p hp => absurd hp List.not_mem_nil
  · rw [h.calls]
    exact fun call hcall => absurd hcall List.not_mem_nil

end Steps

/-- As long as every put is in time, a query that starts after an update has returned shows
the price of the update for its SKU, or that of a later one. -/
theorem returned_update_shown {env : Environment} {s₀ s : State} (h₀ : Initial s₀)
    (h : Reach (step env) PutsInTime s₀ s) :
    ∀ call ∈ s.calls, ∀ answer, call.phase = .answered (some answer) →
      ∀ i ∈ call.returned, answer.Shows s.updates i :=
  fun call hcall => ((h.invariant (Inv.initial h₀) fun _ _ _ ht hok hs =>
    ht.step hok hs).calls call hcall).answered

/-! ## A late put -/

def lampEnvironment : Environment := ⟨id, codePoints⟩

def lampStart : State := ⟨10, lampShop true, [], [], []⟩

theorem lampStart_initial : Initial lampStart := ⟨lampShop_valid true, rfl, rfl, rfl⟩

def lampQuery : Action := .query (.product ⟨[], [], []⟩ (some "acme".toList) "LAMP".toList) false

def lampUpdate (amountMinor startedAt : Int) (priceId : String) : Action :=
  .update ⟨"acme".toList, "LAMP".toList, "USD".toList, amountMinor, none⟩ startedAt priceId.toList

/-- A query that starts after an update has returned. -/
def freshRun : List Action :=
  [lampUpdate 100 1 "a", .evict 0, .evict 0, .evict 0, lampQuery, .access 0, .access 0, .access 0]

/-- A query reads before an update, and puts what it has read when the update has returned;
another query then starts. -/
def staleRun : List Action :=
  [lampUpdate 100 1 "a", lampQuery, .access 0, .access 0, lampUpdate 200 2 "b", .evict 1,
    .evict 1, .evict 1, .access 0, lampQuery, .access 1]

def after (actions : List Action) : State :=
  (run (step lampEnvironment) lampStart actions).getD lampStart

/-- No update has committed since a query read what it puts. -/
def readLast (s : State) : Action → Bool
  | .access i => (s.calls[i]?).all fun call =>
    match call.phase with
    | .put _ version => decide (s.writers.length ≤ version)
    | _ => true
  | _ => true

theorem putsInTime_of_readLast {s : State} {a : Action} (h : readLast s a = true) :
    PutsInTime s a := by
  cases a with
  | access i =>
    intro call entry version hcall hphase j w hj hw _
    unfold readLast at h
    simp only [hcall, Option.all_some, hphase, decide_eq_true_eq] at h
    obtain ⟨hlt, -⟩ := List.getElem?_eq_some_iff.mp hw
    omega
  | query | update | evict | elapse => trivial

theorem after_fresh_reached :
    Reach (step lampEnvironment) PutsInTime lampStart (after freshRun) :=
  (reach_of_runWhere (show runWhere (step lampEnvironment) readLast lampStart freshRun =
    some (after freshRun) from rfl)).weaken fun _ _ => putsInTime_of_readLast

theorem returned_update_shown_lamp : ∃ call ∈ (after freshRun).calls, ∃ answer,
    call.phase = .answered (some answer) ∧ 0 ∈ call.returned ∧
      answer.Shows (after freshRun).updates 0 :=
  ⟨_, List.mem_cons_self, _, rfl, by decide,
    returned_update_shown lampStart_initial after_fresh_reached _ List.mem_cons_self _ rfl 0
      (by decide)⟩

/-- The old price comes back after the update has returned. -/
theorem stale_price_served : Initial lampStart ∧
    Reach (step lampEnvironment) (fun _ _ => True) lampStart (after staleRun) ∧
      ∃ call ∈ (after staleRun).calls, ∃ answer, call.phase = .answered (some answer) ∧
        1 ∈ call.returned ∧ ¬ answer.Shows (after staleRun).updates 1 := by
  refine ⟨lampStart_initial, reach_of_run (show run (step lampEnvironment) lampStart staleRun =
    some (after staleRun) from rfl), _, List.mem_cons_of_mem _ List.mem_cons_self, _, rfl,
    by decide, fun hshows => ?_⟩
  obtain ⟨j, later, hj, hlater, -, hprice⟩ := hshows _ rfl _ List.mem_cons_self ⟨rfl, rfl⟩
  have hlength : (after staleRun).updates.length = 2 := rfl
  obtain ⟨hlt, -⟩ := List.getElem?_eq_some_iff.mp hlater
  obtain rfl : j = 1 := by omega
  cases hlater
  exact absurd hprice (by decide)

end CommercePlayground.Catalog.ReadThrough
