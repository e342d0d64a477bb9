/-
CommercePlayground.Catalog.RecommendationTheorems — when recommendations are other
products, up to the limit.

The service reads one product more than it shows and leaves out those listed under the SKU
it was asked for. `take_filter_iff` says when that leaves the right ones; the rest is what
the catalog answers.
-/
import CommercePlayground.Catalog.Recommendation
import CommercePlayground.Catalog.ListingTheorems

namespace CommercePlayground.Catalog.Recommendation

open Lib
open Listing (Collation Tables Product ProductPage PageCall ResultRow mapProduct HasActiveVariant)

/-! ## Reading one more -/

section Lists

variable {α : Type} {l : List α} {limit size : Nat} {p asked : α → Bool}

theorem length_filter_not (l : List α) (p : α → Bool) :
    (l.filter fun x => !p x).length = l.length - l.countP p := by
  have h := List.length_eq_countP_add_countP p (l := l)
  rw [← List.countP_eq_length_filter]
  have hnot : (fun a => decide ¬ p a = true) = fun a => !p a := by
    funext a
    cases p a <;> rfl
  rw [hnot] at h
  omega

/-- Where one element is asked for and one matches, both are the same if it matches. -/
theorem eq_of_countP_eq_one (hasked : l.countP asked = 1) (hp : l.countP p = 1)
    (hmatch : ∀ x ∈ l, asked x = true → p x = true) : ∀ x ∈ l, p x = asked x := by
  induction l with
  | nil => simp
  | cons a l ih =>
    intro x hx
    rw [List.countP_cons] at hasked hp
    have hmono : l.countP asked ≤ l.countP p :=
      List.countP_mono_left fun y hy => hmatch y (List.mem_cons_of_mem a hy)
    by_cases hask : asked a = true
    · have hpa := hmatch a List.mem_cons_self hask
      rw [if_pos hask] at hasked
      rw [if_pos hpa] at hp
      rcases List.mem_cons.mp hx with rfl | hx
      · rw [hask, hpa]
      · have hnone := List.countP_eq_zero.mp (by omega : l.countP p = 0) x hx
        have hnone' := List.countP_eq_zero.mp (by omega : l.countP asked = 0) x hx
        rw [Bool.not_eq_true] at hnone hnone'
        rw [hnone, hnone']
    · rw [if_neg hask] at hasked
      by_cases hpa : p a = true
      · rw [if_pos hpa] at hp
        omega
      · rw [if_neg hpa] at hp
        rcases List.mem_cons.mp hx with rfl | hx
        · rw [Bool.not_eq_true] at hask hpa
          rw [hask, hpa]
        · exact ih (by omega) (by omega) (fun y hy => hmatch y (List.mem_cons_of_mem a hy)) x hx

/-- Where the whole list is read: exactly the asked one has to match. -/
theorem short_iff (p : α → Bool) (hasked : l.countP asked = 1) (hlimit : l.length ≤ limit) :
    ((∀ x ∈ (l.filter fun x => !p x).take limit, asked x = false) ∧
      ((l.filter fun x => !p x).take limit).length = min limit (l.length - 1)) ↔
      ∀ x ∈ l, p x = asked x := by
  have hle : (l.filter fun x => !p x).length ≤ limit :=
    (List.length_filter_le _ l).trans hlimit
  have hpos : l.countP asked ≤ l.length := List.countP_le_length
  rw [List.take_of_length_le hle, length_filter_not]
  constructor
  · rintro ⟨hothers, hlength⟩
    have hcount := List.countP_le_length (p := p) (l := l)
    refine eq_of_countP_eq_one hasked (by omega) fun x hx hask => ?_
    by_contra hp
    have := hothers x (List.mem_filter.mpr ⟨hx, by simpa using hp⟩)
    rw [hask] at this
    cases this
  · intro heq
    refine ⟨fun x hx => ?_, ?_⟩
    · obtain ⟨hx, hp⟩ := List.mem_filter.mp hx
      rw [← heq x hx]
      simpa using hp
    · rw [List.countP_congr fun x hx => by rw [heq x hx], hasked]
      omega

/-- Where there are more than are shown: no more may match than are read on top, and the
asked one has to match if it is among the first. -/
theorem long_iff (p asked : α → Bool) (hread : limit ≤ size ∧ size ≤ limit + 1) (hlimit : limit < l.length) :
    ((∀ x ∈ ((l.take size).filter fun x => !p x).take limit, asked x = false) ∧
      (((l.take size).filter fun x => !p x).take limit).length = min limit (l.length - 1)) ↔
      limit + (l.take size).countP p ≤ size ∧
        ∀ x ∈ l.take (limit + (l.take size).countP p), asked x = true → p x = true := by
  have hsize : (l.take size).length = size := List.length_take_of_le (by omega)
  have hlength : (((l.take size).filter fun x => !p x).take limit).length =
      min limit (size - (l.take size).countP p) := by
    rw [List.length_take, length_filter_not, hsize]
  have hcount : (l.take size).countP p ≤ size :=
    List.countP_le_length.trans_eq hsize
  rw [hlength]
  have hshown : limit + (l.take size).countP p ≤ size →
      ∀ x, x ∈ ((l.take size).filter fun x => !p x).take limit ↔
        x ∈ l.take (limit + (l.take size).countP p) ∧ p x = false := by
    intro hfits x
    by_cases hnone : (l.take size).countP p = 0
    · -- nothing matches, and the first of what is read are shown
      have hno : ∀ y ∈ l.take size, p y = false := fun y hy =>
        Bool.not_eq_true _ ▸ List.countP_eq_zero.mp hnone y hy
      have hall : (l.take size).filter (fun x => !p x) = l.take size :=
        List.filter_eq_self.mpr fun y hy => by rw [hno y hy]; rfl
      rw [hall, hnone, Nat.add_zero, List.take_take, Nat.min_eq_left (by omega)]
      refine ⟨fun hx => ⟨hx, hno x ?_⟩, fun h => h.1⟩
      exact (List.take_prefix_take_left (by omega)).subset hx
    · -- one matches, and all others of what is read are shown
      have hsum : limit + (l.take size).countP p = size := by omega
      rw [hsum, List.take_of_length_le (by rw [length_filter_not, hsize]; omega)]
      rw [List.mem_filter, Bool.not_eq_true']
  constructor
  · rintro ⟨hothers, hmin⟩
    have hfits : limit + (l.take size).countP p ≤ size := by omega
    refine ⟨hfits, fun x hx hask => ?_⟩
    by_contra hp
    have := hothers x ((hshown hfits x).mpr ⟨hx, Bool.not_eq_true _ ▸ hp⟩)
    rw [hask] at this
    cases this
  · rintro ⟨hfits, hmatch⟩
    refine ⟨fun x hx => ?_, by omega⟩
    obtain ⟨hx, hp⟩ := (hshown hfits x).mp hx
    by_contra hask
    rw [hmatch x hx (Bool.eq_true_of_not_eq_false hask)] at hp
    cases hp

end Lists

/-! ## The catalog's answer -/

variable {collation : Collation} {tables : Tables} {now : Int}

theorem readSize_bounds (limit : Nat) : boundedLimit limit ≤ readSize limit ∧
    readSize limit ≤ boundedLimit limit + 1 ∧ 1 ≤ readSize limit ∧ readSize limit ≤ 100 := by
  unfold readSize boundedLimit maxLimit
  omega

theorem pageCall_size (tenantId segment : Text) (flag : Option Text) (limit : Nat) :
    (pageCall tenantId segment flag (readSize limit)).size = readSize limit := by
  have h := readSize_bounds limit
  show max 1 (min (readSize limit : Int) 100) = readSize limit
  omega

theorem pageCall_formed {tenantId : Text}
    (htenant : Propagation.CatalogService.normalize tenantId = .ok tenantId) (segment : Text)
    (flag : Option Text) (limit : Nat) :
    (pageCall tenantId segment flag (readSize limit)).Formed where
  tenant := htenant
  category := (Option.some_ne_none _).symm
  sort := List.mem_cons_self
  page := by
    show (0 : Int) ≤ 0 ∧ (0 : Int) < 2147483648
    decide
  size := by
    have h := readSize_bounds limit
    rw [pageCall_size]
    omega
  experience := Listing.colon_not_mem_evaluateExperience flag

theorem mem_activeProducts {tenantId : Text} {row : ResultRow} :
    row ∈ activeProducts collation tables now tenantId ↔
      row ∈ Listing.productFrom collation tables now none ∧ row.product.tenantId = tenantId ∧
        row.product.status = .active := by
  unfold activeProducts Listing.matching Listing.listed
  rw [List.mem_filter]
  simp

/-- Every product has its row. -/
theorem exists_row (valid : tables.Valid) (collation : Collation) (now : Int) (sku : Option Text)
    {p : Listing.ProductRow} (hp : p ∈ tables.products) :
    ∃ row ∈ Listing.productFrom collation tables now sku, row.product = p := by
  rw [← Listing.map_productFrom valid collation now sku] at hp
  exact List.mem_map.mp hp

/-- The product of an active variant is found if it is active. -/
theorem skuRows_ne_nil (valid : tables.Valid) {pv : Listing.VariantRow}
    (hpv : pv ∈ tables.variants) (hactive : pv.active = true) :
    Listing.skuRows collation tables now pv.tenantId pv.sku ≠ [] ↔
      ∃ row ∈ activeProducts collation tables now pv.tenantId, row.product.id = pv.productId := by
  constructor
  · intro hne
    obtain ⟨row, hrow⟩ := List.exists_mem_of_ne_nil _ hne
    obtain ⟨hfrom, htenant, hstatus, hvariant⟩ := Listing.mem_skuRows.mp hrow
    obtain ⟨other, hother, hotherTenant, hotherProduct, hotherSku, -⟩ :=
      Listing.hasVariant_iff.mp hvariant
    obtain rfl := valid.skus.eq_of_mem hother hpv
      (Prod.ext (hotherTenant.trans htenant) hotherSku)
    obtain ⟨listed, hlisted, hproduct⟩ :=
      exists_row valid collation now none (Listing.mem_productFrom hfrom).1
    refine ⟨listed, mem_activeProducts.mpr ⟨hlisted, ?_, ?_⟩, ?_⟩
    · rw [hproduct, htenant]
    · rw [hproduct, hstatus]
    · rw [hproduct, hotherProduct]
  · rintro ⟨row, hrow, hid⟩
    obtain ⟨hfrom, htenant, hstatus⟩ := mem_activeProducts.mp hrow
    obtain ⟨found, hfound, hproduct⟩ :=
      exists_row valid collation now (some pv.sku) (Listing.mem_productFrom hfrom).1
    refine List.ne_nil_of_mem (Listing.mem_skuRows.mpr ⟨hfound, ?_, ?_, ?_⟩)
    · rw [hproduct, htenant]
    · rw [hproduct, hstatus]
    · rw [hproduct]
      exact Listing.hasVariant_iff.mpr ⟨pv, hpv, htenant.symm, hid.symm, rfl, hactive⟩

/-- A listed product is under another SKU if it is not under the one asked for. -/
theorem isOther_mapProduct {sku : Text} {row : ResultRow} (h : row.variant.isSome) :
    isOther sku (mapProduct row) = !listedAs sku row := by
  obtain ⟨variant, hvariant⟩ := Option.isSome_iff_exists.mp h
  unfold isOther listedAs mapProduct
  rw [hvariant]
  rfl

/-- The products that are shown. -/
def shown (params : Recommend) (ordered : List ResultRow) : List ResultRow :=
  ((ordered.take (readSize params.limit)).filter fun row => !listedAs params.sku row).take
    (boundedLimit params.limit)

/-- The page that the service reads. -/
theorem findProducts_first (valid : tables.Valid) {tenantId segment : Text}
    {flag : Option Text} {limit : Nat}
    (htenant : Propagation.CatalogService.normalize tenantId = .ok tenantId)
    {ordered : List ResultRow} (hperm : ordered.Perm (activeProducts collation tables now tenantId))
    (hsorted : ordered.Pairwise (Listing.precedes collation .featured)) {result : ProductPage} :
    (pageCall tenantId segment flag (readSize limit)).findProducts collation tables now =
        .ok result ↔
      (∀ row ∈ ordered, Listing.unreadable row = false) ∧
        result = ⟨(ordered.take (readSize limit)).map mapProduct, 0, readSize limit,
          ordered.length, Listing.evaluateExperience flag⟩ := by
  have hrows : ordered = (activeProducts collation tables now tenantId).insertionSort
      (Listing.precedes collation .featured) :=
    Listing.eq_sorted (Listing.matching_unique valid collation now _ _ _) hperm hsorted
  have hoffset : ∀ size, Listing.offset 0 size = 0 := by
    intro size
    unfold Listing.offset
    rw [Int.zero_mul]
    rfl
  have hitems : (pageCall tenantId segment flag (readSize limit)).matching collation tables now =
      activeProducts collation tables now tenantId := rfl
  have horder : Listing.orderBy (pageCall tenantId segment flag (readSize limit)).sort =
      .featured := rfl
  have hpage : (pageCall tenantId segment flag (readSize limit)).page = 0 := rfl
  rw [Listing.findProducts_ok valid (pageCall_formed htenant segment flag limit), horder, hitems,
    hpage, hoffset, pageCall_size, Int.toNat_natCast, ← hrows, ← hperm.length_eq]
  have hreadable : (∀ row ∈ activeProducts collation tables now tenantId,
      Listing.unreadable row = false) ↔ ∀ row ∈ ordered, Listing.unreadable row = false :=
    forall_congr' fun row => imp_congr_left hperm.mem_iff.symm
  rw [hreadable]
  exact ⟨fun h => ⟨h.1 rfl, h.2.2⟩, fun h => ⟨fun _ => h.1, le_refl _, h.2⟩⟩

/-- Listed products with a SKU are shown unless they are listed under the one asked for. -/
theorem items_shown {params : Recommend} {ordered : List ResultRow}
    (hlisted : ∀ row ∈ ordered, row.variant.isSome) :
    ((((ordered.take (readSize params.limit)).map mapProduct).filter (isOther params.sku)).take
      (boundedLimit params.limit)) = (shown params ordered).map mapProduct := by
  unfold shown
  rw [List.filter_map, List.map_take]
  have hother : ∀ row ∈ ordered.take (readSize params.limit),
      (isOther params.sku ∘ mapProduct) row = !listedAs params.sku row := fun row hrow =>
    isOther_mapProduct (hlisted row (List.mem_of_mem_take hrow))
  rw [List.filter_congr hother]

/-- What the service answers. -/
theorem recommend_ok (valid : tables.Valid) (params : Recommend) (flag : Option Text)
    (htenant : Propagation.CatalogService.normalize params.tenantId = .ok params.tenantId)
    (hlimit : 1 ≤ params.limit) {ordered : List ResultRow}
    (hperm : ordered.Perm (activeProducts collation tables now params.tenantId))
    (hsorted : ordered.Pairwise (Listing.precedes collation .featured))
    (hlisted : ∀ row ∈ ordered, row.variant.isSome) (products : List Product) :
    (∃ lookup, recommend collation tables now flag params = .ok lookup ∧
        lookup.products = products) ↔
      headerValue params.tenantId = true ∧ trimIsEmpty params.sku = false ∧
        Listing.skuRows collation tables now params.tenantId params.sku ≠ [] ∧
        (∀ row ∈ ordered, Listing.unreadable row = false) ∧
        products = (shown params ordered).map mapProduct := by
  have hfind := Listing.findBySku_eq valid collation now htenant params.sku
  constructor
  · rintro ⟨lookup, h, rfl⟩
    unfold recommend at h
    split at h
    · cases h
    split at h
    · cases h
    unfold fetch at h
    split at h
    · cases h
    rename_i hsku _ hheader
    obtain ⟨⟨found, page⟩, hquery, h⟩ := bind_ok h
    obtain ⟨product, hproduct, h⟩ := bind_ok h
    cases h
    obtain ⟨answer, hanswer, hquery⟩ := bind_ok hquery
    obtain ⟨items, hitems, hquery⟩ := bind_ok hquery
    split at hquery
    · cases hquery
      obtain ⟨hreadable, rfl⟩ := (findProducts_first valid htenant hperm hsorted).mp hitems
      refine ⟨by simpa using hheader, by simpa using hsku, fun hnil => ?_, hreadable,
        items_shown hlisted⟩
      rw [hfind, hnil] at hanswer
      cases hanswer
      cases hproduct
    · cases hquery
  · rintro ⟨hheader, hsku, hne, hreadable, rfl⟩
    obtain ⟨row, hrow⟩ := Option.isSome_iff_exists.mp (List.isSome_head?.mpr hne)
    have hquery : catalogQuery collation tables now flag params (readSize params.limit) =
        .ok (some (mapProduct row), ⟨(ordered.take (readSize params.limit)).map mapProduct, 0,
          readSize params.limit, ordered.length, Listing.evaluateExperience flag⟩) := by
      have hskus : ((ordered.take (readSize params.limit)).map mapProduct).all
          (fun item => item.sku.isSome) = true := by
        rw [List.all_map, List.all_eq_true]
        intro row hrow
        exact (Option.isSome_map ..).trans (hlisted row (List.mem_of_mem_take hrow))
      unfold catalogQuery
      rw [hfind, hrow, (findProducts_first valid htenant hperm hsorted).mpr ⟨hreadable, rfl⟩]
      exact if_pos hskus
    have hfetch : fetch collation tables now flag params = .ok ⟨mapProduct row,
        (shown params ordered).map mapProduct, Listing.evaluateExperience flag⟩ := by
      unfold fetch
      rw [hheader, hquery, ← items_shown hlisted]
      rfl
    refine ⟨⟨mapProduct row, _, Listing.evaluateExperience flag⟩, ?_, rfl⟩
    unfold recommend
    rw [if_neg (by rw [hsku]; decide), if_neg (by omega), hfetch]

/-! ## The recommendations -/

/-- An active product is listed with a SKU. -/
theorem listed_isSome (hvariants : ∀ p ∈ tables.products, p.status = .active →
      HasActiveVariant tables p) {tenantId : Text} {row : ResultRow}
    (h : row ∈ activeProducts collation tables now tenantId) : row.variant.isSome := by
  obtain ⟨hrow, -, hstatus⟩ := mem_activeProducts.mp h
  obtain ⟨hproduct, -, -⟩ := Listing.mem_productFrom hrow
  exact Listing.mapProduct_complete.mp
    ((Listing.complete_of_matching h).mpr (hvariants row.product hproduct hstatus))

/-- What is shown has each product once. -/
theorem shown_nodup {params : Recommend} {ordered : List ResultRow}
    (hu : KeyUnique (fun row => row.product.id) ordered) :
    (((shown params ordered).map mapProduct).map Product.id).Nodup := by
  have hsub : (shown params ordered).Sublist ordered :=
    (List.take_sublist _ _).trans (List.filter_sublist.trans (List.take_sublist _ _))
  have hids : ((shown params ordered).map fun row => row.product.id).Nodup :=
    hu.sublist (hsub.map _)
  have hmap : ((shown params ordered).map mapProduct).map Product.id =
      ((shown params ordered).map fun row => row.product.id).map some := by
    rw [List.map_map, List.map_map]
    rfl
  rw [hmap]
  exact hids.map (Option.some_injective _)

/-- What is shown is right in the two cases of its length. -/
theorem shown_iff {params : Recommend} {productId : Text} {ordered : List ResultRow}
    (hasked : ordered.countP (fun row => decide (row.product.id = productId)) = 1) :
    ((∀ product ∈ (shown params ordered).map mapProduct, product.id ≠ some productId) ∧
        ((shown params ordered).map mapProduct).length = min (boundedLimit params.limit)
          (ordered.countP fun row => decide (row.product.id ≠ productId))) ↔
      (ordered.length ≤ boundedLimit params.limit → ∀ row ∈ ordered,
        listedAs params.sku row = true ↔ row.product.id = productId) ∧
      (boundedLimit params.limit < ordered.length →
        boundedLimit params.limit + (ordered.take (readSize params.limit)).countP
          (listedAs params.sku) ≤ readSize params.limit ∧
        ∀ row ∈ ordered.take (boundedLimit params.limit +
            (ordered.take (readSize params.limit)).countP (listedAs params.sku)),
          row.product.id = productId → listedAs params.sku row = true) := by
  have hothers : ordered.countP (fun row => decide (row.product.id ≠ productId)) =
      ordered.length - 1 := by
    simp only [List.countP_eq_length_filter, ne_eq, decide_not]
    rw [length_filter_not, hasked]
  have hids : (∀ product ∈ (shown params ordered).map mapProduct,
      product.id ≠ some productId) ↔
      ∀ row ∈ shown params ordered, decide (row.product.id = productId) = false := by
    rw [List.forall_mem_map]
    refine forall_congr' fun row => forall_congr' fun _ => ?_
    rw [decide_eq_false_iff_not]
    exact not_congr Option.some_inj
  have hbounds := readSize_bounds params.limit
  rw [hids, hothers, List.length_map]
  unfold shown
  rcases Nat.lt_or_ge (boundedLimit params.limit) ordered.length with hlong | hshort
  · rw [long_iff (listedAs params.sku) (fun row => decide (row.product.id = productId))
      ⟨hbounds.1, hbounds.2.1⟩ hlong]
    simp only [decide_eq_true_eq]
    exact ⟨fun h => ⟨fun hle => absurd hlong (Nat.not_lt.mpr hle), fun _ => h⟩,
      fun h => h.2 hlong⟩
  · rw [List.take_of_length_le (hshort.trans hbounds.1),
      short_iff (listedAs params.sku) hasked hshort]
    refine ⟨fun h => ⟨fun _ row hrow => ?_, fun hlt => absurd hlt (Nat.not_lt.mpr hshort)⟩,
      fun h row hrow => ?_⟩
    · rw [h row hrow, decide_eq_true_eq]
    · rw [Bool.eq_iff_iff, decide_eq_true_eq]
      exact h.1 hshort row hrow

/-- Two products, the first with two variants. -/
def twoProducts : Tables where
  tenants := [⟨"acme".toList, "USD".toList⟩]
  categories := [⟨"c".toList, "acme".toList, "light".toList, "Light".toList⟩]
  products := [
    ⟨"p".toList, "acme".toList, "c".toList, "lamp".toList, "Lamp".toList, [], none, .active,
      none, 0⟩,
    ⟨"q".toList, "acme".toList, "c".toList, "torch".toList, "Torch".toList, [], none, .active,
      none, 0⟩]
  variants := [
    ⟨"u".toList, "acme".toList, "p".toList, "LAMP-1".toList, true⟩,
    ⟨"v".toList, "acme".toList, "p".toList, "LAMP-2".toList, true⟩,
    ⟨"w".toList, "acme".toList, "q".toList, "TORCH".toList, true⟩]
  prices := []

theorem twoProducts_valid : twoProducts.Valid where
  tenants := by decide
  categories := by decide
  products := by decide
  variants := by decide
  skus := by decide
  productTenant := by decide
  productCategory := by decide
  variantProduct := by decide

theorem twoProducts_listed : ∀ p ∈ twoProducts.products, p.status = .active →
    HasActiveVariant twoProducts p := by decide

end CommercePlayground.Catalog.Recommendation
