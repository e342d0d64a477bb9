/-
CommercePlayground.Catalog.CacheTheorems — what the keys of the cache tell apart.

An encoded text has no colon and nothing that a pattern reads, so a key falls apart into
its parts at its colons.
-/
import CommercePlayground.Catalog.Cache
import CommercePlayground.Catalog.ListingTheorems

namespace CommercePlayground.Catalog.Cache

open Lib
open Listing (PageCall Collation Tables ProductsRequest products products_formed)
open Propagation (CatalogService.normalize)

/-! ## Parts -/

theorem encoded_injective {a b : Text} (h : encoded a = encoded b) : a = b :=
  utf8_injective (base64Url_injective (utf8_lt a) (utf8_lt b) h)

theorem colon_not_mem_encoded (s : Text) : ':' ∉ encoded s :=
  not_mem_base64Url (utf8_lt s) (by decide)

theorem colon_not_mem_decimal (n : Nat) : ':' ∉ decimal n :=
  fun h => absurd (decimal_isDigit h) (by decide)

theorem encoded_plain (s : Text) : ∀ c ∈ encoded s, Glob.Plain c := by
  intro c hc
  obtain ⟨n, hn, rfl⟩ := List.mem_map.mp hc
  have hall : ∀ n < 64, Glob.Plain (base64Digit n) := by decide
  exact hall n (sextets_lt (utf8_lt s) n hn)

/-- The first separator cuts a text in one way. -/
theorem append_separator_inj {c : Char} {a b a' b' : Text} (ha : c ∉ a) (ha' : c ∉ a')
    (h : a ++ c :: b = a' ++ c :: b') : a = a' ∧ b = b' := by
  have hsplit := congrArg (splitOnce c) h
  rw [splitOnce_append ha, splitOnce_append ha', Option.some.injEq, Prod.mk.injEq] at hsplit
  exact hsplit

theorem cacheKey_formed {call : PageCall} (h : call.Formed) : cacheKey call =
    .ok (keyPrefix ++ ("page".toList ++ ':' :: (encoded call.tenant ++
      ':' :: (encoded (call.search.getD []) ++ ':' :: (encoded (call.category.getD []) ++
        ':' :: (encoded call.sort ++ ':' :: (decimal call.page.toNat ++
          ':' :: (decimal call.size.toNat ++
            ':' :: encoded (call.experience ++ ':' :: call.segment))))))))) := by
  unfold cacheKey pageKey
  rw [h.tenant]
  simp only [List.append_assoc, List.cons_append]
  rfl

theorem productKey_eq (tenantId sku : Text) : productKey tenantId sku =
    keyPrefix ++ ("product".toList ++ ':' :: (encoded tenantId ++ ':' :: encoded sku)) := by
  unfold productKey
  simp only [List.append_assoc]
  rfl

/-! ## Keys -/

/-- A key has the parts of its call. -/
theorem sameQuery_of_cacheKey {a b : PageCall} (ha : a.Formed) (hb : b.Formed)
    (h : cacheKey a = cacheKey b) : SameQuery a b := by
  rw [cacheKey_formed ha, cacheKey_formed hb, Except.ok.injEq] at h
  obtain ⟨-, h⟩ := append_separator_inj (by decide) (by decide) (List.append_cancel_left h)
  obtain ⟨htenant, h⟩ :=
    append_separator_inj (colon_not_mem_encoded _) (colon_not_mem_encoded _) h
  obtain ⟨hsearch, h⟩ :=
    append_separator_inj (colon_not_mem_encoded _) (colon_not_mem_encoded _) h
  obtain ⟨hcategory, h⟩ :=
    append_separator_inj (colon_not_mem_encoded _) (colon_not_mem_encoded _) h
  obtain ⟨hsort, h⟩ :=
    append_separator_inj (colon_not_mem_encoded _) (colon_not_mem_encoded _) h
  obtain ⟨hpage, h⟩ :=
    append_separator_inj (colon_not_mem_decimal _) (colon_not_mem_decimal _) h
  obtain ⟨hsize, h⟩ :=
    append_separator_inj (colon_not_mem_decimal _) (colon_not_mem_decimal _) h
  -- an experience has no colon, whatever the segment has
  obtain ⟨hexperience, -⟩ :=
    append_separator_inj ha.experience hb.experience (encoded_injective h)
  have hsearch := encoded_injective hsearch
  have hcategory := encoded_injective hcategory
  have hpage := decimal_injective hpage
  have hsize := decimal_injective hsize
  have hpageA := ha.page
  have hpageB := hb.page
  have hsizeA := ha.size
  have hsizeB := hb.size
  refine ⟨encoded_injective htenant, ?_, encoded_injective hsort, by omega, by omega,
    hexperience, ?_⟩
  · cases hcatA : a.category with
    | none =>
      cases hcatB : b.category with
      | none => rfl
      | some category =>
        rw [hcatA, hcatB] at hcategory
        exact absurd (hcatB.trans (congrArg some hcategory.symm)) hb.category
    | some category =>
      cases hcatB : b.category with
      | none =>
        rw [hcatA, hcatB] at hcategory
        exact absurd (hcatA.trans (congrArg some hcategory)) ha.category
      | some other =>
        rw [hcatA, hcatB] at hcategory
        exact congrArg some hcategory
  · cases hsearchA : a.search with
    | none =>
      rw [hsearchA] at hsearch
      exact .inr ⟨rfl, hsearch.symm⟩
    | some search =>
      cases hsearchB : b.search with
      | none =>
        rw [hsearchA, hsearchB] at hsearch
        exact .inr ⟨hsearch, rfl⟩
      | some other =>
        rw [hsearchA, hsearchB] at hsearch
        exact .inl (congrArg some hsearch)

/-- An absent search is an empty one. -/
theorem SameQuery.findProducts_eq {a b : PageCall} (h : SameQuery a b) (collation : Collation)
    (tables : Tables) (now : Int) :
    a.findProducts collation tables now = b.findProducts collation tables now := by
  have hsearch : Listing.normalizedSearch a.search = Listing.normalizedSearch b.search := by
    rcases h.search with hsearch | ⟨hsearchA, hsearchB⟩
    · rw [hsearch]
    · have hempty : ∀ search : Option Text, search.getD [] = [] →
          Listing.normalizedSearch search = [] := by
        rintro (_ | search) hnil
        · rfl
        · rw [Option.getD_some] at hnil
          rw [hnil]
          rfl
      rw [hempty _ hsearchA, hempty _ hsearchB]
  unfold PageCall.findProducts Listing.findProducts
  rw [h.tenant, h.category, h.sort, h.page, h.size, h.experience, hsearch]

theorem cacheKey_ne_productKey {call : PageCall} {key : Text} (h : cacheKey call = .ok key)
    (tenantId sku : Text) : key ≠ productKey tenantId sku := by
  intro heq
  obtain ⟨tenant, -, h⟩ := bind_ok h
  cases h
  rw [productKey_eq] at heq
  simp only [List.append_assoc] at heq
  obtain ⟨hfamily, -⟩ := append_separator_inj (c := ':') (a := "page".toList)
    (by decide) (by decide) (List.append_cancel_left heq)
  exact absurd hfamily (by decide)

theorem productKey_injective {tenantId sku tenantId' sku' : Text}
    (h : productKey tenantId sku = productKey tenantId' sku') :
    tenantId = tenantId' ∧ sku = sku' := by
  rw [productKey_eq, productKey_eq] at h
  obtain ⟨-, h⟩ := append_separator_inj (by decide) (by decide) (List.append_cancel_left h)
  obtain ⟨htenant, hsku⟩ :=
    append_separator_inj (colon_not_mem_encoded _) (colon_not_mem_encoded _) h
  exact ⟨encoded_injective htenant, encoded_injective hsku⟩

/-! ## Eviction -/

/-- The pattern takes any family and any parts after the tenant. -/
theorem scanMatches_tenant (tenant family rest : Text) :
    Glob.scanMatches (keyPrefix ++ "*:".toList ++ encoded tenant ++ ":*".toList)
      (keyPrefix ++ (family ++ ':' :: (encoded tenant ++ ':' :: rest))) = true := by
  simp only [List.append_assoc]
  rw [Glob.scanMatches_plain (forall_mem_of_all (by decide))]
  refine Glob.scanMatches_star family ?_
  show Glob.scanMatches ([':'] ++ (encoded tenant ++ ([':'] ++ ['*'])))
    ([':'] ++ (encoded tenant ++ ([':'] ++ rest))) = true
  rw [Glob.scanMatches_plain (forall_mem_of_all (by decide)), Glob.scanMatches_plain (encoded_plain tenant),
    Glob.scanMatches_plain (forall_mem_of_all (by decide)), ← List.append_nil rest]
  exact Glob.scanMatches_star rest rfl

theorem scanMatches_tenantKey {tenantId tenant pattern key : Text}
    (hpattern : evictionPattern tenantId = .ok pattern)
    (htenant : CatalogService.normalize tenantId = .ok tenant) (hkey : TenantKey tenant key) :
    Glob.scanMatches pattern key = true := by
  unfold evictionPattern at hpattern
  rw [htenant] at hpattern
  cases hpattern
  cases hkey with
  | page call key hcall hkey =>
    have hnormal := Listing.normalize_idem htenant
    unfold cacheKey pageKey at hkey
    rw [hcall, hnormal] at hkey
    cases hkey
    have hmatch := scanMatches_tenant tenant "page".toList
    simp only [List.append_assoc] at hmatch ⊢
    exact hmatch _
  | product sku =>
    rw [productKey_eq]
    exact scanMatches_tenant tenant "product".toList _

/-- Calls with one key make one query, the keys of pages and of products are all
different, and the keys of a tenant are among those that its eviction finds. -/
theorem cache_keys (lower : Text → Text) :
    (∀ (request other : ProductsRequest) (a b : PageCall) (key : Text),
      products lower request = .ok a → products lower other = .ok b →
      cacheKey a = .ok key → cacheKey b = .ok key → SameQuery a b ∧
        ∀ (collation : Collation) (tables : Tables) (now : Int),
          a.findProducts collation tables now = b.findProducts collation tables now) ∧
    (∀ (call : PageCall) (key tenant sku : Text), cacheKey call = .ok key →
      key ≠ productKey tenant sku) ∧
    (∀ tenant sku tenant' sku' : Text, productKey tenant sku = productKey tenant' sku' →
      tenant = tenant' ∧ sku = sku') ∧
    ∀ tenantId tenant pattern key : Text, evictionPattern tenantId = .ok pattern →
      CatalogService.normalize tenantId = .ok tenant → TenantKey tenant key →
        Glob.scanMatches pattern key = true := by
  refine ⟨?_, ?_, ?_, ?_⟩
  · intro request other a b key ha hb hkeyA hkeyB
    have hsame := sameQuery_of_cacheKey (products_formed ha) (products_formed hb)
      (hkeyA.trans hkeyB.symm)
    exact ⟨hsame, hsame.findProducts_eq⟩
  · exact fun call key tenant sku h => cacheKey_ne_productKey h tenant sku
  · exact fun tenant sku tenant' sku' => productKey_injective
  · exact fun tenantId tenant pattern key => scanMatches_tenantKey

end CommercePlayground.Catalog.Cache
