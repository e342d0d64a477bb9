/-
CommercePlayground.Catalog.ListingTheorems — pages of the catalog.

On valid tables the joins of `PRODUCT_FROM` keep every product once, and its order is
total, so that a page is a slice of one list. From there: when a page is what it says
(`page_iff`), and when it has what the schema promises (`complete_iff`).
-/
import Mathlib.Data.Char
import CommercePlayground.Catalog.Listing
import CommercePlayground.Propagation.TenantTheorems

namespace CommercePlayground.Catalog.Listing

open Lib

variable {collation : Collation} {tables : Tables} {now : Int}

/-! ## The order -/

theorem precedes_total (collation : Collation) (order : OrderBy) (a b : ResultRow) :
    precedes collation order a b ∨ precedes collation order b a := by
  rcases lt_trichotomy (sortKeys order a) (sortKeys order b) with h | h | h
  · exact .inl (.inl h)
  · rcases collation.total a.product.id b.product.id with hid | hid
    · exact .inl (.inr ⟨h, hid⟩)
    · exact .inr (.inr ⟨h.symm, hid⟩)
  · exact .inr (.inl h)

theorem precedes_trans {order : OrderBy} {a b c : ResultRow} (hab : precedes collation order a b)
    (hbc : precedes collation order b c) : precedes collation order a c := by
  rcases hab with hab | ⟨hab, hid⟩ <;> rcases hbc with hbc | ⟨hbc, hid'⟩
  · exact .inl (hab.trans hbc)
  · exact .inl (hbc ▸ hab)
  · exact .inl (hab ▸ hbc)
  · exact .inr ⟨hab.trans hbc, collation.trans _ _ _ hid hid'⟩

/-- `p.id` stands in every `ORDER BY`. -/
theorem precedes_antisymm {order : OrderBy} {a b : ResultRow} (hab : precedes collation order a b)
    (hba : precedes collation order b a) : a.product.id = b.product.id := by
  rcases hab with hab | ⟨hkeys, hid⟩ <;> rcases hba with hba | ⟨hkeys', hid'⟩
  · exact absurd hba (lt_asymm hab)
  · exact absurd hab (hkeys' ▸ lt_irrefl _)
  · exact absurd hba (hkeys ▸ lt_irrefl _)
  · exact collation.antisymm _ _ hid hid'

instance (order : OrderBy) : Std.Total (precedes collation order) := ⟨precedes_total collation order⟩

instance (order : OrderBy) : IsTrans ResultRow (precedes collation order) :=
  ⟨fun _ _ _ => precedes_trans⟩

/-- Rows of different products have one order. -/
theorem eq_sorted {order : OrderBy} {rows sorted : List ResultRow}
    (hu : KeyUnique (fun row => row.product.id) rows) (hperm : sorted.Perm rows)
    (hsorted : sorted.Pairwise (precedes collation order)) :
    sorted = rows.insertionSort (precedes collation order) := by
  have hsort := List.perm_insertionSort (precedes collation order) rows
  refine List.Perm.eq_of_pairwise (fun a b ha hb hab hba => ?_) hsorted
    (List.pairwise_insertionSort _ rows) (hperm.trans hsort.symm)
  exact hu.eq_of_mem (hperm.subset ha) (hsort.subset hb) (precedes_antisymm hab hba)

/-! ## The joins -/

theorem tenantsOf_eq (valid : tables.Valid) {p : ProductRow} (hp : p ∈ tables.products) :
    ∃ t, tenantsOf tables p = [t] := by
  obtain ⟨t, ht, hid⟩ := valid.productTenant p hp
  refine ⟨t, valid.tenants.filter_eq ht (by simpa using hid) fun s _ hs => ?_⟩
  exact (of_decide_eq_true hs).trans hid.symm

theorem categoriesOf_eq (valid : tables.Valid) {p : ProductRow} (hp : p ∈ tables.products) :
    ∃ c, categoriesOf tables p = [c] := by
  obtain ⟨c, hc, htenant, hid⟩ := valid.productCategory p hp
  refine ⟨c, valid.categories.filter_eq hc (by simpa using ⟨htenant, hid⟩) fun s _ hs => ?_⟩
  exact (of_decide_eq_true hs).2.trans hid.symm

/-- The row of a product. -/
theorem rows_eq (valid : tables.Valid) (collation : Collation) (now : Int) (sku : Option Text)
    {p : ProductRow} (hp : p ∈ tables.products) : ∃ c pr, categoriesOf tables p = [c] ∧
      ((tenantsOf tables p).flatMap fun t => (categoriesOf tables p).map fun c =>
        ResultRow.mk p c (lateralVariant collation tables p sku)
          (lateralPrice tables now t p (lateralVariant collation tables p sku))) =
      [⟨p, c, lateralVariant collation tables p sku, pr⟩] := by
  obtain ⟨t, ht⟩ := tenantsOf_eq valid hp
  obtain ⟨c, hc⟩ := categoriesOf_eq valid hp
  exact ⟨c, _, hc, by rw [ht, hc]; rfl⟩

theorem mem_productFrom {sku : Option Text} {row : ResultRow}
    (h : row ∈ productFrom collation tables now sku) : row.product ∈ tables.products ∧
      row.category ∈ categoriesOf tables row.product ∧
      row.variant = lateralVariant collation tables row.product sku := by
  obtain ⟨p, hp, h⟩ := List.mem_flatMap.mp h
  obtain ⟨t, -, h⟩ := List.mem_flatMap.mp h
  obtain ⟨c, hc, rfl⟩ := List.mem_map.mp h
  exact ⟨hp, hc, rfl⟩

/-- `PRODUCT_FROM` has every product once. -/
theorem map_productFrom (valid : tables.Valid) (collation : Collation) (now : Int)
    (sku : Option Text) :
    (productFrom collation tables now sku).map ResultRow.product = tables.products := by
  unfold productFrom
  rw [List.map_flatMap]
  have hone : ∀ p ∈ tables.products, (((tenantsOf tables p).flatMap fun t =>
      (categoriesOf tables p).map fun c => ResultRow.mk p c (lateralVariant collation tables p sku)
        (lateralPrice tables now t p (lateralVariant collation tables p sku))).map
          ResultRow.product) = [p] := by
    intro p hp
    obtain ⟨c, pr, -, hrows⟩ := rows_eq valid collation now sku hp
    rw [hrows]
    rfl
  rw [List.flatMap_congr hone]
  simp

theorem productFrom_unique (valid : tables.Valid) (collation : Collation) (now : Int)
    (sku : Option Text) :
    KeyUnique (fun row => row.product.id) (productFrom collation tables now sku) := by
  have h := valid.products
  rw [← map_productFrom valid collation now sku] at h
  unfold KeyUnique at h ⊢
  rwa [List.map_map] at h

theorem matching_unique (valid : tables.Valid) (collation : Collation) (now : Int)
    (tenantId : Text) (category : Option Text) (search : Text) :
    KeyUnique (fun row => row.product.id)
      (matching collation tables now tenantId category search) :=
  (productFrom_unique valid collation now none).sublist (List.filter_sublist.map _)

/-- Both statements of `findProducts` are about the same products. -/
theorem countProducts_eq (valid : tables.Valid) (now : Int) (tenantId : Text)
    (category : Option Text) (search : Text) :
    countProducts collation tables tenantId category search =
      (matching collation tables now tenantId category search).length := by
  unfold countProducts matching productFrom
  rw [List.filter_flatMap, List.length_flatMap, List.length_flatMap]
  refine congrArg List.sum (List.map_congr_left fun p hp => ?_)
  obtain ⟨c, pr, hc, hrows⟩ := rows_eq valid collation now none hp
  rw [hrows, hc]
  cases h : listed collation tables tenantId category search p c <;> simp [h]

/-! ## The lateral join -/

theorem isSome_head?_insertionSort {α : Type} (r : α → α → Prop) [DecidableRel r]
    (l : List α) : (l.insertionSort r).head?.isSome ↔ ∃ a, a ∈ l := by
  rw [List.isSome_head?, ← List.length_pos_iff, List.length_insertionSort, List.length_pos_iff]
  exact ⟨List.exists_mem_of_ne_nil l, fun ⟨_, h⟩ => List.ne_nil_of_mem h⟩

theorem isSome_lateralVariant {p : ProductRow} {sku : Option Text} :
    (lateralVariant collation tables p sku).isSome ↔ ∃ pv ∈ tables.variants,
      pv.tenantId = p.tenantId ∧ pv.productId = p.id ∧ pv.active = true ∧
        sku.all (pv.sku = ·) = true := by
  unfold lateralVariant
  rw [isSome_head?_insertionSort]
  simp only [List.mem_filter, decide_eq_true_eq]

/-- Only the SKU of a product can be missing. -/
theorem mapProduct_complete {row : ResultRow} :
    (mapProduct row).Complete ↔ row.variant.isSome := by
  refine ⟨fun h => ?_, fun h => ⟨rfl, rfl, rfl, ?_, rfl, rfl, ⟨rfl, rfl, rfl, rfl⟩, ?_⟩⟩
  · have := h.sku
    rwa [mapProduct, Option.isSome_map] at this
  · rwa [mapProduct, Option.isSome_map]
  · intro price hprice
    obtain ⟨pr, -, rfl⟩ := Option.map_eq_some_iff.mp hprice
    exact ⟨rfl, rfl⟩

/-- A listed product is complete if it has an active variant. -/
theorem complete_of_matching {tenantId search : Text} {category : Option Text}
    {row : ResultRow} (h : row ∈ matching collation tables now tenantId category search) :
    (mapProduct row).Complete ↔ HasActiveVariant tables row.product := by
  obtain ⟨-, -, hvariant⟩ := mem_productFrom (List.mem_filter.mp h).1
  rw [mapProduct_complete, hvariant, isSome_lateralVariant]
  simp [HasActiveVariant]

/-! ## `findBySku` -/

theorem hasVariant_iff {p : ProductRow} {sku : Text} : hasVariant tables p sku = true ↔
    ∃ pv ∈ tables.variants, pv.tenantId = p.tenantId ∧ pv.productId = p.id ∧ pv.sku = sku ∧
      pv.active = true := by
  unfold hasVariant
  simp only [List.any_eq_true, decide_eq_true_eq]

theorem mem_skuRows {tenantId sku : Text} {row : ResultRow} :
    row ∈ skuRows collation tables now tenantId sku ↔
      row ∈ productFrom collation tables now (some sku) ∧ row.product.tenantId = tenantId ∧
        row.product.status = .active ∧ hasVariant tables row.product sku = true := by
  unfold skuRows
  simp only [List.mem_filter, decide_eq_true_eq]

/-- A SKU belongs to one variant of a tenant, and that to one product. -/
theorem skuRows_eq (valid : tables.Valid) {tenantId sku : Text} {a b : ResultRow}
    (ha : a ∈ skuRows collation tables now tenantId sku)
    (hb : b ∈ skuRows collation tables now tenantId sku) : a = b := by
  obtain ⟨hrow, htenant, -, hvariant⟩ := mem_skuRows.mp ha
  obtain ⟨hrow', htenant', -, hvariant'⟩ := mem_skuRows.mp hb
  obtain ⟨pv, hpv, hpvTenant, hpvProduct, hsku, -⟩ := hasVariant_iff.mp hvariant
  obtain ⟨pv', hpv', hpvTenant', hpvProduct', hsku', -⟩ := hasVariant_iff.mp hvariant'
  have htenants : pv.tenantId = pv'.tenantId := by
    rw [hpvTenant, hpvTenant', htenant, htenant']
  obtain rfl := valid.skus.eq_of_mem hpv hpv' (Prod.ext htenants (hsku.trans hsku'.symm))
  exact (productFrom_unique valid collation now (some sku)).eq_of_mem hrow hrow'
    (hpvProduct.symm.trans hpvProduct')

theorem skuRows_cases (valid : tables.Valid) (collation : Collation) (now : Int)
    (tenantId sku : Text) : skuRows collation tables now tenantId sku = [] ∨
      ∃ row, skuRows collation tables now tenantId sku = [row] := by
  have hnodup : (skuRows collation tables now tenantId sku).Nodup :=
    (List.Nodup.of_map _ (productFrom_unique valid collation now (some sku))).filter _
  cases h : skuRows collation tables now tenantId sku with
  | nil => exact .inl rfl
  | cons a rest =>
    refine .inr ⟨a, ?_⟩
    cases rest with
    | nil => rfl
    | cons b rest =>
      have ha : a ∈ skuRows collation tables now tenantId sku := by simp [h]
      have hb : b ∈ skuRows collation tables now tenantId sku := by simp [h]
      rw [h, skuRows_eq valid ha hb] at hnodup
      simp at hnodup

/-- `findBySku` finds the product of the SKU, if there is one. -/
theorem findBySku_eq (valid : tables.Valid) (collation : Collation) (now : Int) {tenantId : Text}
    (htenant : Propagation.CatalogService.normalize tenantId = .ok tenantId) (sku : Text) :
    findBySku collation tables now tenantId sku =
      .ok ((skuRows collation tables now tenantId sku).head?.map mapProduct) := by
  unfold findBySku
  rw [htenant]
  show optionalRow (skuRows collation tables now tenantId sku) = _
  rcases skuRows_cases valid collation now tenantId sku with h | ⟨row, h⟩ <;> rw [h] <;> rfl

theorem complete_of_skuRows {tenantId sku : Text} {row : ResultRow}
    (h : row ∈ skuRows collation tables now tenantId sku) : (mapProduct row).Complete := by
  obtain ⟨hrow, -, -, hvariant⟩ := mem_skuRows.mp h
  obtain ⟨pv, hpv, htenant, hproduct, hsku, hactive⟩ := hasVariant_iff.mp hvariant
  rw [mapProduct_complete, (mem_productFrom hrow).2.2, isSome_lateralVariant]
  exact ⟨pv, hpv, htenant, hproduct, hactive, by simpa using hsku⟩

/-! ## The controller -/

open Propagation CatalogService in
/-- A tenant is normalised once. -/
theorem normalize_idem {s t : Text} (h : normalize s = .ok t) : normalize t = .ok t := by
  obtain ⟨rfl, hname⟩ := normalize_catalog_ok.mp h
  exact normalize_catalog_ok.mpr ⟨trimMatches_idem _ _, hname⟩

open Propagation CatalogService in
theorem memberCandidate_normal {member t : Text} (h : memberCandidate member = .ok (some t)) :
    normalize t = .ok t := by
  unfold memberCandidate at h
  split at h
  · cases h
  · split at h
    · cases h
    · obtain ⟨value, -, h⟩ := bind_ok h
      obtain ⟨candidate, hcandidate, h⟩ := bind_ok h
      cases h
      exact normalize_idem hcandidate

open Propagation CatalogService in
/-- Every source of the tenant is normalised. -/
theorem resolve_normal {headers : TenantHeaders} {requested : Option Text} {t : Text}
    (h : resolve (fromHeaders headers) requested = .ok t) : normalize t = .ok t := by
  unfold fromHeaders at h
  dsimp only at h
  split at h
  · rename_i candidates hcandidates
    obtain ⟨hne, hrequested, hall⟩ := resolve_fromCandidates.mp h
    obtain ⟨explicit, hexplicit, hcandidates⟩ := bind_ok hcandidates
    obtain ⟨members, hmembers, hcandidates⟩ := bind_ok hcandidates
    cases hcandidates
    cases requested with
    | some q => exact normalize_idem (hrequested q (by simp))
    | none =>
      obtain ⟨y, hy⟩ := List.exists_mem_of_ne_nil _ hne
      rw [Option.toList_none, List.nil_append] at hy
      obtain rfl := hall y hy
      rcases List.mem_append.mp hy with hy | hy
      · obtain ⟨value, -, hvalue⟩ := mem_of_mapM_ok hexplicit hy
        exact normalize_idem hvalue
      · obtain ⟨member, hmember, rfl⟩ := List.mem_filterMap.mp hy
        obtain ⟨value, -, hvalue⟩ := mem_of_mapM_ok hmembers hmember
        exact memberCandidate_normal hvalue
  · cases h

/-- What the controller says about a call. -/
structure PageCall.Formed (call : PageCall) : Prop where
  tenant : Propagation.CatalogService.normalize call.tenant = .ok call.tenant
  category : call.category ≠ some []
  sort : call.sort ∈ sorts
  page : 0 ≤ call.page ∧ call.page < 2147483648
  size : 1 ≤ call.size ∧ call.size ≤ 100
  experience : ':' ∉ call.experience

theorem normalizeCategory_ok {lower : Text → Text} {category result : Option Text}
    (h : normalizeCategory lower category = .ok result) : result ≠ some [] := by
  intro hresult
  subst hresult
  cases category with
  | none => cases h
  | some category =>
    dsimp only [normalizeCategory] at h
    by_cases hblank : isBlank category = true
    · rw [if_pos hblank] at h
      cases h
    · rw [if_neg hblank] at h
      by_cases hslug : isSlug (lower (javaTrim category)) = true
      · rw [if_pos hslug] at h
        have hnil : lower (javaTrim category) = [] := by
          injection h with h
          exact Option.some.inj h
        rw [hnil] at hslug
        exact absurd hslug (by decide)
      · rw [if_neg hslug] at h
        cases h

theorem normalizeSort_ok {lower : Text → Text} {sort : Option Text} {result : Text}
    (h : normalizeSort lower sort = .ok result) : result ∈ sorts := by
  unfold normalizeSort at h
  dsimp only at h
  split at h
  · rename_i hmem
    cases h
    exact hmem
  · cases h

theorem colon_not_mem_evaluateExperience (flag : Option Text) :
    ':' ∉ evaluateExperience flag := by
  unfold evaluateExperience
  dsimp only
  split
  · rename_i hmem
    revert hmem
    generalize (flag.filter fun value => !isBlank value).getD "standard".toList = variant
    intro hmem
    simp only [List.mem_cons, List.not_mem_nil, or_false] at hmem
    rcases hmem with rfl | rfl | rfl <;> decide
  · decide

theorem products_formed {lower : Text → Text} {request : ProductsRequest} {call : PageCall}
    (h : products lower request = .ok call) : call.Formed := by
  obtain ⟨tenant, htenant, h⟩ := bind_ok h
  obtain ⟨category, hcategory, h⟩ := bind_ok h
  obtain ⟨sort, hsort, h⟩ := bind_ok h
  cases h
  refine ⟨resolve_normal htenant, normalizeCategory_ok hcategory, normalizeSort_ok hsort,
    ?_, ?_, colon_not_mem_evaluateExperience _⟩
  · cases hpage : request.page with
    | none =>
      show (0 : Int) ≤ 0 ∧ (0 : Int) < 2147483648
      decide
    | some page =>
      have hfits := request.fits page (by simp [hpage])
      show 0 ≤ max 0 page ∧ max 0 page < 2147483648
      omega
  · cases hsize : request.size with
    | none =>
      show (1 : Int) ≤ 20 ∧ (20 : Int) ≤ 100
      decide
    | some size =>
      show 1 ≤ max 1 (min size 100) ∧ max 1 (min size 100) ≤ 100
      omega

/-! ## Pages -/

theorem pageOf_ne_nil {ordered : List ResultRow} {p size : Nat} (hsize : 0 < size) :
    pageOf ordered p size ≠ [] ↔ p * size < ordered.length := by
  unfold pageOf
  rw [← List.length_pos_iff, List.length_take, List.length_drop]
  omega

theorem wrap32_eq {n : Int} (h : -2147483648 ≤ n ∧ n < 2147483648) : wrap32 n = n := by
  unfold wrap32
  omega

theorem wrap32_lt (n : Int) : -2147483648 ≤ wrap32 n ∧ wrap32 n < 2147483648 := by
  unfold wrap32
  omega

theorem wrap64_eq {n : Int} (h : -9223372036854775808 ≤ n ∧ n < 9223372036854775808) :
    wrap64 n = n := by
  unfold wrap64
  omega

/-- The offset of a page is right as long as it is an `int`. -/
theorem offset_eq_iff {page size : Int} (hpage : 0 ≤ page) (hsize : 1 ≤ size) :
    offset page size = page * size ↔ page * size < 2147483648 := by
  have hpos : 0 ≤ page * size := Int.mul_nonneg hpage (by omega)
  constructor
  · intro h
    have hlt := (wrap32_lt (page * size)).2
    unfold offset at h
    omega
  · intro h
    exact wrap32_eq ⟨by omega, h⟩

/-- The last page that an `int` can name has no next one. -/
theorem isHasNext_iff {result : ProductPage} (hpage : 0 ≤ result.page ∧ result.page < 2147483648)
    (hsize : 1 ≤ result.size ∧ result.size ≤ 100) (htotal : 0 ≤ result.totalElements) :
    result.isHasNext = true ↔
      2147483648 ≤ result.page + 1 ∨ (result.page + 1) * result.size < result.totalElements := by
  unfold ProductPage.isHasNext
  rw [decide_eq_true_eq]
  by_cases hlast : 2147483648 ≤ result.page + 1
  · have hwrap : wrap32 (result.page + 1) = -2147483648 := by
      unfold wrap32
      omega
    have hneg : wrap64 (-2147483648 * result.size) = -2147483648 * result.size :=
      wrap64_eq (by omega)
    rw [hwrap, hneg]
    exact ⟨fun _ => .inl hlast, fun _ => by omega⟩
  · have hwrap : wrap32 (result.page + 1) = result.page + 1 := wrap32_eq (by omega)
    have hprod : (result.page + 1) * result.size ≤ 2147483648 * 100 :=
      Int.mul_le_mul (by omega) hsize.2 (by omega) (by omega)
    have hpos : 0 ≤ (result.page + 1) * result.size := Int.mul_nonneg (by omega) (by omega)
    rw [hwrap, wrap64_eq (by omega)]
    exact ⟨.inr, fun h => h.resolve_left hlast⟩

/-- The pages are counted right as long as their number is an `int`. -/
theorem getTotalPages_iff {result : ProductPage} {total size : Nat}
    (htotal : result.totalElements = total) (hsize : result.size = size)
    (hbounds : 1 ≤ size ∧ size ≤ 100) :
    (∀ p : Nat, (p : Int) < result.getTotalPages ↔ p * size < total) ↔
      total ≤ 2147483647 * size := by
  have hsome : result.size ≠ 0 := by omega
  unfold ProductPage.getTotalPages
  rw [if_neg hsome, htotal, hsize]
  constructor
  · intro h
    -- no `int` counts page 2147483647
    have hlast := h 2147483647
    have hlt := (wrap32_lt (Int.tdiv (wrap64 (total + size - 1)) size)).2
    by_contra hmany
    have := hlast.mpr (by omega)
    omega
  · intro h p
    have hsmall : (total : Int) ≤ 2147483647 * 100 := by omega
    have hround : Int.tdiv (wrap64 (total + size - 1)) size = ((total + size - 1) / size : Nat) := by
      rw [wrap64_eq (by omega), Int.tdiv_eq_ediv_of_nonneg (by omega)]
      have hcast : ((total + size - 1 : Nat) : Int) = total + size - 1 := by omega
      rw [← hcast]
      rfl
    have hle : (total + size - 1) / size ≤ 2147483647 := by
      rw [Nat.div_le_iff_le_mul_add_pred (by omega), Nat.mul_comm]
      omega
    have hint : -2147483648 ≤ (((total + size - 1) / size : Nat) : Int) ∧
        (((total + size - 1) / size : Nat) : Int) < 2147483648 :=
      ⟨(by decide : (-2147483648 : Int) ≤ 0).trans (Int.natCast_nonneg _),
        Int.ofNat_lt.mpr (Nat.lt_succ_of_le hle)⟩
    rw [hround, wrap32_eq hint, Int.ofNat_lt]
    constructor
    · intro hp
      have hmul : (p + 1) * size ≤ total + size - 1 := (Nat.le_div_iff_mul_le (by omega)).mp hp
      rw [Nat.succ_mul] at hmul
      omega
    · intro hp
      refine (Nat.le_div_iff_mul_le (by omega)).mpr ?_
      rw [Nat.succ_mul]
      omega

/-! ## When a page is right -/

theorem readable_iff {order : OrderBy} {rows : List ResultRow} :
    ¬ (order = .featured ∧ rows.any unreadable = true) ↔
      (order = .featured → ∀ row ∈ rows, unreadable row = false) := by
  rw [not_and, Bool.not_eq_true, List.any_eq_false]
  simp only [Bool.not_eq_true]

theorem selectPage_ok {order : OrderBy} {rows items : List ResultRow} {size offset : Int} :
    selectPage collation order rows size offset = .ok items ↔
      (order = .featured → ∀ row ∈ rows, unreadable row = false) ∧ 0 ≤ offset ∧
        items = ((rows.insertionSort (precedes collation order)).drop offset.toNat).take
          size.toNat := by
  unfold selectPage
  rw [← readable_iff]
  by_cases hneg : offset < 0
  · rw [if_pos hneg]
    exact ⟨fun h => (by cases h), fun h => absurd hneg (not_lt.mpr h.2.1)⟩
  · rw [if_neg hneg]
    by_cases hbad : order = .featured ∧ rows.any unreadable = true
    · rw [if_pos hbad]
      exact ⟨fun h => (by cases h), fun h => absurd hbad h.1⟩
    · rw [if_neg hbad, Except.ok.injEq]
      exact ⟨fun h => ⟨hbad, not_lt.mp hneg, h.symm⟩, fun h => h.2.2.symm⟩

/-- A formed call runs both statements. -/
theorem findProducts_eq (valid : tables.Valid) (collation : Collation) (now : Int) {call : PageCall}
    (hformed : call.Formed) : call.findProducts collation tables now =
      (selectPage collation (orderBy call.sort) (call.matching collation tables now) call.size
        (offset call.page call.size)).map fun items =>
          ⟨items.map mapProduct, call.page, call.size,
            (call.matching collation tables now).length, call.experience⟩ := by
  unfold PageCall.findProducts findProducts
  rw [hformed.tenant]
  show (selectPage collation _ (call.matching collation tables now) _ _ >>= _) = _
  rw [countProducts_eq valid now]
  cases selectPage collation (orderBy call.sort) (call.matching collation tables now) call.size
    (offset call.page call.size) <;> rfl

/-- What `findProducts` answers. -/
theorem findProducts_ok (valid : tables.Valid) {call : PageCall} (hformed : call.Formed)
    {result : ProductPage} : call.findProducts collation tables now = .ok result ↔
      (orderBy call.sort = .featured →
        ∀ row ∈ call.matching collation tables now, unreadable row = false) ∧
      0 ≤ offset call.page call.size ∧
      result = ⟨((((call.matching collation tables now).insertionSort
          (precedes collation (orderBy call.sort))).drop (offset call.page call.size).toNat).take
            call.size.toNat).map mapProduct, call.page, call.size,
        (call.matching collation tables now).length, call.experience⟩ := by
  rw [findProducts_eq valid collation now hformed]
  constructor
  · intro h
    obtain ⟨items, hitems, rfl⟩ := map_ok h
    obtain ⟨hreadable, hoffset, rfl⟩ := selectPage_ok.mp hitems
    exact ⟨hreadable, hoffset, rfl⟩
  · rintro ⟨hreadable, hoffset, rfl⟩
    rw [selectPage_ok.mpr ⟨hreadable, hoffset, rfl⟩]
    rfl

/-- A page is the slice that its numbers name, with the right count and flags, if and only
if the offset, the number of the next page and the number of pages are an `int`; and the
featured order needs every `featured` attribute to be a boolean. -/
theorem page_iff (valid : tables.Valid) {lower : Text → Text} {request : ProductsRequest}
    {call : PageCall} (h : products lower request = .ok call) {ordered : List ResultRow}
    (hperm : ordered.Perm (call.matching collation tables now))
    (hsorted : ordered.Pairwise (precedes collation (orderBy call.sort))) :
    (∃ result, call.findProducts collation tables now = .ok result ∧
        result.Shows ordered call.page.toNat call.size.toNat ∧
        offset call.page call.size = call.page * call.size) ↔
      (orderBy call.sort = .featured → ∀ row ∈ ordered, unreadable row = false) ∧
        call.page * call.size < 2147483648 ∧ call.page + 1 < 2147483648 ∧
        (ordered.length : Int) ≤ 2147483647 * call.size := by
  have hformed := products_formed h
  obtain ⟨page, hpage⟩ := Int.eq_ofNat_of_zero_le hformed.page.1
  obtain ⟨size, hsize⟩ := Int.eq_ofNat_of_zero_le (Int.le_trans (by decide) hformed.size.1)
  have hbounds : 1 ≤ size ∧ size ≤ 100 := by
    have := hformed.size
    omega
  have hpages := hformed.page
  have hlength := hperm.length_eq
  have hrows : ordered = (call.matching collation tables now).insertionSort
      (precedes collation (orderBy call.sort)) :=
    eq_sorted (matching_unique valid collation now _ _ _) hperm hsorted
  have hreadable : (∀ row ∈ ordered, unreadable row = false) ↔
      ∀ row ∈ call.matching collation tables now, unreadable row = false :=
    forall_congr' fun row => imp_congr_left hperm.mem_iff
  have hdrop : ordered.drop ((page + 1) * size) ≠ [] ↔ (page + 1) * size < ordered.length := by
    rw [← List.length_pos_iff, List.length_drop]
    omega
  constructor
  · rintro ⟨result, hresult, hshows, hoffset⟩
    obtain ⟨hread, hnonneg, hpageOf⟩ := (findProducts_ok valid hformed).mp hresult
    have hpageEq : result.page = call.page := by rw [hpageOf]
    have hsizeEq : result.size = call.size := by rw [hpageOf]
    have hsmall := (offset_eq_iff hpages.1 hformed.size.1).mp hoffset
    have htotal : ordered.length ≤ 2147483647 * size := by
      refine (getTotalPages_iff hshows.total (hsizeEq.trans hsize) hbounds).mp fun p => ?_
      have hp := hshows.pages p
      rw [hsize, Int.toNat_natCast, pageOf_ne_nil (by omega)] at hp
      exact hp
    refine ⟨fun hfeatured => hreadable.mpr (hread hfeatured), hsmall, ?_, by omega⟩
    -- the flag of the last page of all is set
    by_contra hlast
    have hnext := hshows.next.mp ((isHasNext_iff (hpageEq ▸ hpages) (hsizeEq ▸ hformed.size)
      (hshows.total ▸ Int.natCast_nonneg _)).mpr (.inl (hpageEq ▸ not_lt.mp hlast)))
    rw [hpage, hsize, Int.toNat_natCast, Int.toNat_natCast, hdrop] at hnext
    have hpage' : page + 1 = 2147483648 := by omega
    rw [hpage'] at hnext
    omega
  · rintro ⟨hread, hsmall, hlast, htotal⟩
    have hoffset := (offset_eq_iff hpages.1 hformed.size.1).mpr hsmall
    have hnonneg : 0 ≤ call.page * call.size := Int.mul_nonneg hpages.1 (by omega)
    refine ⟨_, (findProducts_ok valid hformed).mpr ⟨fun hfeatured => hreadable.mp (hread hfeatured),
      hoffset ▸ hnonneg, rfl⟩, ⟨?_, congrArg Nat.cast hlength.symm, ?_, ?_⟩, hoffset⟩
    · show List.map mapProduct _ = _
      rw [hoffset, ← hrows, hpage, hsize]
      rfl
    · rw [isHasNext_iff hpages hformed.size (Int.natCast_nonneg _)]
      show (2147483648 ≤ call.page + 1 ∨ (call.page + 1) * call.size <
        ((call.matching collation tables now).length : Int)) ↔ _
      rw [hpage, hsize, Int.toNat_natCast, Int.toNat_natCast, hdrop, ← hlength]
      rw [hpage] at hlast
      have hcast : ((page : Int) + 1) * size < ordered.length ↔
          (page + 1) * size < ordered.length := by
        rw [← Int.ofNat_lt]
        push_cast
        rfl
      rw [hcast]
      exact or_iff_right (by omega)
    · intro p
      rw [hsize, Int.toNat_natCast, pageOf_ne_nil (by omega)]
      exact (getTotalPages_iff (congrArg Nat.cast hlength.symm) rfl hbounds).mpr (by omega) p

/-- Texts by their code points, and an `ILIKE` for the pattern that takes everything. -/
def codePoints : Collation where
  ilike _ pattern := decide (pattern = "%%".toList)
  collate a b := decide (¬ b < a)
  trans a b c hab hbc := by
    have hab := not_lt.mp (of_decide_eq_true hab)
    have hbc := not_lt.mp (of_decide_eq_true hbc)
    exact decide_eq_true (not_lt.mpr (hab.trans hbc))
  total a b := (le_total a b).imp (fun h => decide_eq_true (not_lt.mpr h))
    (fun h => decide_eq_true (not_lt.mpr h))
  antisymm a b hab hba :=
    le_antisymm (not_lt.mp (of_decide_eq_true hab)) (not_lt.mp (of_decide_eq_true hba))

/-- One product with one variant. -/
def lampShop (active : Bool) : Tables where
  tenants := [⟨"acme".toList, "USD".toList⟩]
  categories := [⟨"c".toList, "acme".toList, "light".toList, "Light".toList⟩]
  products := [⟨"p".toList, "acme".toList, "c".toList, "lamp".toList, "Lamp".toList, [], none,
    .active, none, 0⟩]
  variants := [⟨"v".toList, "acme".toList, "p".toList, "LAMP".toList, active⟩]
  prices := []

theorem lampShop_valid (active : Bool) : (lampShop active).Valid where
  tenants := by cases active <;> decide
  categories := by cases active <;> decide
  products := by cases active <;> decide
  variants := by cases active <;> decide
  skus := by cases active <;> decide
  productTenant := by cases active <;> decide
  productCategory := by cases active <;> decide
  variantProduct := by cases active <;> decide

/-- A request for a page of 100 products. -/
def lampRequest (page : Int) (h : 0 ≤ page ∧ page < 2147483648) : ProductsRequest where
  headers := ⟨[], [], []⟩
  search := none
  category := none
  sort := none
  tenantId := some "acme".toList
  page := some page
  size := some 100
  segment := none
  flag := none
  fits n hn := by
    rcases List.mem_cons.mp hn with hn | hn
    · cases hn
      omega
    · rw [List.mem_singleton] at hn
      cases hn
      decide

/-- Its call. -/
def lampCall (page : Int) : PageCall where
  tenant := "acme".toList
  search := none
  category := none
  sort := "featured".toList
  page := page
  size := 100
  experience := "standard".toList
  segment := "standard".toList

theorem lampRequest_call : products id (lampRequest 0 (by decide)) = .ok (lampCall 0) := rfl

theorem lamp_page : ∃ result,
    (lampCall 0).findProducts codePoints (lampShop true) 0 = .ok result ∧
      result.Shows ((lampCall 0).matching codePoints (lampShop true) 0) 0 100 ∧
      offset 0 100 = 0 * 100 :=
  (page_iff (lampShop_valid true) lampRequest_call
    (List.Perm.refl _) (by decide)).mpr (by decide)

/-- Page 21474837 of 100 products begins at an offset that is no `int`. -/
theorem far_page_fails :
    products id (lampRequest 21474837 (by decide)) = .ok (lampCall 21474837) ∧
      (lampCall 21474837).findProducts codePoints (lampShop true) 0 =
        .error "OFFSET must not be negative" := by
  constructor
  · rfl
  · decide

/-! ## When a page is complete -/

theorem findProducts_boolean (valid : tables.Valid) (collation : Collation) (now : Int)
    {call : PageCall} (hformed : call.Formed) :
    call.findProducts collation tables now ≠ .error "invalid input syntax for type boolean" ↔
      (0 ≤ offset call.page call.size → orderBy call.sort = .featured →
        ∀ row ∈ call.matching collation tables now, unreadable row = false) := by
  rw [findProducts_eq valid collation now hformed, ← readable_iff]
  unfold selectPage
  by_cases hneg : offset call.page call.size < 0
  · rw [if_pos hneg]
    refine ⟨fun _ h => absurd hneg (not_lt.mpr h), fun _ h => ?_⟩
    simp [Except.map] at h
  · rw [if_neg hneg]
    by_cases hbad : orderBy call.sort = .featured ∧
        (call.matching collation tables now).any unreadable = true
    · rw [if_pos hbad]
      exact ⟨fun h => absurd rfl h, fun h => absurd hbad (h (not_lt.mp hneg))⟩
    · rw [if_neg hbad]
      exact ⟨fun _ _ => hbad, fun _ h => (by cases h)⟩

/-- A query does not fail over a product, and its answer has every non-null field, if and
only if every product on the page has an active variant and the featured order can read
the attribute of every product it sorts. Single products are always complete. -/
theorem complete_iff (valid : tables.Valid) {lower : Text → Text} {request : ProductsRequest}
    {call : PageCall} (h : products lower request = .ok call) {ordered : List ResultRow}
    (hperm : ordered.Perm (call.matching collation tables now))
    (hsorted : ordered.Pairwise (precedes collation (orderBy call.sort))) :
    (call.findProducts collation tables now ≠ .error "invalid input syntax for type boolean" ∧
        (∀ result, call.findProducts collation tables now = .ok result →
          ∀ product ∈ result.items, product.Complete) ∧
        ∀ sku, ∃ found, findBySku collation tables now call.tenant sku = .ok found ∧
          ∀ product, found = some product → product.Complete) ↔
      (0 ≤ offset call.page call.size →
        (orderBy call.sort = .featured → ∀ row ∈ ordered, unreadable row = false) ∧
          ∀ row ∈ (ordered.drop (offset call.page call.size).toNat).take call.size.toNat,
            HasActiveVariant tables row.product) := by
  have hformed := products_formed h
  have hrows : ordered = (call.matching collation tables now).insertionSort
      (precedes collation (orderBy call.sort)) :=
    eq_sorted (matching_unique valid collation now _ _ _) hperm hsorted
  have hreadable : (∀ row ∈ ordered, unreadable row = false) ↔
      ∀ row ∈ call.matching collation tables now, unreadable row = false :=
    forall_congr' fun row => imp_congr_left hperm.mem_iff
  have hcomplete : ∀ row ∈ (ordered.drop (offset call.page call.size).toNat).take
      call.size.toNat, (mapProduct row).Complete ↔ HasActiveVariant tables row.product :=
    fun row hrow => complete_of_matching
      (hperm.mem_iff.mp (List.mem_of_mem_drop (List.mem_of_mem_take hrow)))
  rw [findProducts_boolean valid collation now hformed]
  constructor
  · rintro ⟨hread, hitems, -⟩ hoffset
    refine ⟨fun hfeatured => hreadable.mpr (hread hoffset hfeatured), fun row hrow => ?_⟩
    have hall := hitems _ ((findProducts_ok valid hformed).mpr ⟨hread hoffset, hoffset, rfl⟩)
    rw [← hrows] at hall
    exact (hcomplete row hrow).mp (hall _ (List.mem_map_of_mem hrow))
  · intro hpage
    refine ⟨fun hoffset hfeatured => hreadable.mp ((hpage hoffset).1 hfeatured), ?_, ?_⟩
    · intro result hresult product hproduct
      obtain ⟨-, hoffset, rfl⟩ := (findProducts_ok valid hformed).mp hresult
      rw [← hrows] at hproduct
      obtain ⟨row, hrow, rfl⟩ := List.mem_map.mp hproduct
      exact (hcomplete row hrow).mpr ((hpage hoffset).2 row hrow)
    · intro sku
      refine ⟨_, findBySku_eq valid collation now hformed.tenant sku, fun product hproduct => ?_⟩
      obtain ⟨row, hrow, rfl⟩ := Option.map_eq_some_iff.mp hproduct
      exact complete_of_skuRows (List.mem_of_mem_head? hrow)

theorem lamp_complete :
    (lampCall 0).findProducts codePoints (lampShop true) 0 ≠
        .error "invalid input syntax for type boolean" ∧
      (∀ result, (lampCall 0).findProducts codePoints (lampShop true) 0 = .ok result →
        ∀ product ∈ result.items, product.Complete) ∧
      ∀ sku, ∃ found, findBySku codePoints (lampShop true) 0 "acme".toList sku = .ok found ∧
        ∀ product, found = some product → product.Complete :=
  (complete_iff (lampShop_valid true) lampRequest_call
    (List.Perm.refl _) (by decide)).mpr (by decide)

/-- A product whose one variant is inactive is listed without a SKU. -/
theorem inactive_variant_listed :
    products id (lampRequest 0 (by decide)) = .ok (lampCall 0) ∧
      ∃ result, (lampCall 0).findProducts codePoints (lampShop false) 0 = .ok result ∧
        ∃ product ∈ result.items, product.sku = none ∧ ¬ product.Complete := by
  refine ⟨rfl, _, rfl, _, List.mem_cons_self, rfl, fun h => ?_⟩
  exact absurd h.sku (by decide)

end CommercePlayground.Catalog.Listing
