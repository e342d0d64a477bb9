/-
CommercePlayground.Pricing.CacheTheorems — whose quote a cache hit returns.

The key spells out the tenant, the customer and the currency, and sums up the
rest in a number: the bytes of the fingerprint text, read in base 31, modulo
`2 ^ 64`. So two requests share a key exactly when their `tenant:customer` texts
and their currencies are equal and the two numbers are congruent
(`cacheKey_eq_iff`), which different baskets can be.
-/
import CommercePlayground.Lib.Table
import CommercePlayground.Pricing.Cache

namespace CommercePlayground.Pricing

open Lib

/-! ## What the key depends on -/

/-- The bytes of a text, read in base 31. -/
def base31 (l : List Nat) : Nat := l.foldl (fun n byte => n * 31 + byte) 0

theorem foldl_hashByte (l : List Nat) (n : Nat) :
    l.foldl hashByte (n % 2 ^ 64) = l.foldl (fun n byte => n * 31 + byte) n % 2 ^ 64 := by
  induction l generalizing n with
  | nil => rfl
  | cons byte l ih =>
    have hstep : hashByte (n % 2 ^ 64) byte = (n * 31 + byte) % 2 ^ 64 := by
      unfold hashByte
      omega
    rw [List.foldl_cons, List.foldl_cons, hstep, ih]

theorem fingerprint_eq_iff (a b : QuoteRequest) :
    stableRequestFingerprint a = stableRequestFingerprint b ↔
      base31 (utf8 (fingerprintText a)) % 2 ^ 64 = base31 (utf8 (fingerprintText b)) % 2 ^ 64 := by
  unfold stableRequestFingerprint base31
  rw [← foldl_hashByte, ← foldl_hashByte]
  exact decimal_injective.eq_iff

theorem currency_no_colon {code : Text} (h : isCurrencyCode code = true) : ':' ∉ code := by
  simp only [isCurrencyCode, Bool.not_eq_true', Bool.or_eq_false_iff, Bool.not_eq_false'] at h
  have hall := h.2
  have hletter : ∀ n, isAsciiAlphabetic n = true → n < 128 := by
    intro n hn
    simp only [isAsciiAlphabetic, Bool.or_eq_true, decide_eq_true_eq] at hn
    omega
  have hascii : Ascii code := ascii_of_utf8 fun n hn =>
    hletter n (List.all_eq_true.mp hall n hn)
  rw [utf8_of_ascii hascii] at hall
  intro hmem
  exact absurd (List.all_eq_true.mp hall _ (List.mem_map_of_mem hmem)) (by decide)

theorem decimal_no_colon (n : Nat) : ':' ∉ decimal n := by
  intro hmem
  have hdigit := decimal_isDigit hmem
  exact absurd hdigit (by decide)

theorem currency_of_valid {request : QuoteRequest} (h : validateRequest request = .ok ()) :
    isCurrencyCode request.currencyCode = true := by
  by_contra hno
  rw [Bool.not_eq_true] at hno
  simp only [validateRequest, hno] at h
  repeat
    split at h
    · cases h
  rename_i hlast
  exact absurd rfl hlast

/-- When two accepted requests share a key. -/
theorem cacheKey_eq_iff {a b : QuoteRequest} (ha : validateRequest a = .ok ())
    (hb : validateRequest b = .ok ()) :
    cacheKey a = cacheKey b ↔
      a.tenantId ++ ':' :: a.customerId = b.tenantId ++ ':' :: b.customerId ∧
        a.currencyCode = b.currencyCode ∧
        base31 (utf8 (fingerprintText a)) % 2 ^ 64 =
          base31 (utf8 (fingerprintText b)) % 2 ^ 64 := by
  rw [← fingerprint_eq_iff]
  have hshape : ∀ r : QuoteRequest, cacheKey r = "pricing:quote:".toList ++
      ((r.tenantId ++ ':' :: r.customerId ++ ':' :: r.currencyCode) ++
        ':' :: stableRequestFingerprint r) := by
    intro r
    unfold cacheKey
    generalize "pricing:quote:".toList = start
    generalize stableRequestFingerprint r = hash
    simp
  rw [hshape, hshape, List.append_cancel_left_eq]
  constructor
  · intro h
    have hno : ∀ r, ':' ∉ stableRequestFingerprint r := fun r => decimal_no_colon _
    obtain ⟨hfront, hfinger⟩ := append_cons_inj (hno a) (hno b) h
    obtain ⟨hids, hcurrency⟩ := append_cons_inj (currency_no_colon (currency_of_valid ha))
      (currency_no_colon (currency_of_valid hb)) hfront
    exact ⟨hids, hcurrency, hfinger⟩
  · rintro ⟨hids, hcurrency, hfinger⟩
    rw [hids, hcurrency, hfinger]

/-! ## Runs -/

/-- Two requests ask for the same quote. -/
structure SameQuote (a b : QuoteRequest) : Prop where
  tenant : a.tenantId = b.tenantId
  customer : a.customerId = b.customerId
  currency : a.currencyCode = b.currencyCode
  context : ∀ key ∈ fingerprintKeys, a.contextValue key = b.contextValue key
  items : a.items.Perm b.items

theorem SameQuote.refl (a : QuoteRequest) : SameQuote a a :=
  ⟨rfl, rfl, rfl, fun _ _ => rfl, .refl _⟩

/-- The key tells two requests apart. -/
def Apart (a b : QuoteRequest) : Prop :=
  a.tenantId ++ ':' :: a.customerId ≠ b.tenantId ++ ':' :: b.customerId ∨
    a.currencyCode ≠ b.currencyCode ∨
    base31 (utf8 (fingerprintText a)) % 2 ^ 64 ≠ base31 (utf8 (fingerprintText b)) % 2 ^ 64

theorem cacheKey_ne_iff {a b : QuoteRequest} (ha : validateRequest a = .ok ())
    (hb : validateRequest b = .ok ()) : cacheKey a ≠ cacheKey b ↔ Apart a b := by
  rw [Ne, cacheKey_eq_iff ha hb, Apart]
  by_cases h₁ : a.tenantId ++ ':' :: a.customerId = b.tenantId ++ ':' :: b.customerId
  · by_cases h₂ : a.currencyCode = b.currencyCode
    · simp [h₁, h₂]
    · simp [h₁, h₂]
  · simp [h₁]

/-- A lookup meets no cached quote of a different request that shares its base-31
number, its currency and its `tenant:customer` text. -/
def KeepsApart (s : CacheState) : CacheAction → Prop
  | .lookup l => ∀ p ∈ s.cache, SameQuote l.request p.2.origin ∨ Apart l.request p.2.origin
  | _ => True

/-- Entries stand under the key of the request they were computed for. -/
structure CacheInv (s : CacheState) : Prop where
  keys : ∀ p ∈ s.cache, p.1 = cacheKey p.2.origin ∧ validateRequest p.2.origin = .ok ()
  pending : ∀ p ∈ s.pending, validateRequest p.request = .ok ()
  answers : ∀ a ∈ s.answers, SameQuote a.request a.origin

theorem CacheInv.miss {s : CacheState} {request : QuoteRequest} {useCache : Bool}
    (h : CacheInv s) (hv : validateRequest request = .ok ()) :
    CacheInv { s with pending := s.pending ++ [⟨request, useCache⟩] } := by
  refine ⟨h.keys, fun p hp => ?_, h.answers⟩
  rcases List.mem_append.mp hp with hp | hp
  · exact h.pending p hp
  · rw [List.mem_singleton.mp hp]
    exact hv

theorem CacheInv.answer {s : CacheState} {answer : Answer} (h : CacheInv s)
    (hsame : SameQuote answer.request answer.origin) :
    CacheInv { s with answers := s.answers ++ [answer] } := by
  refine ⟨h.keys, h.pending, fun a ha => ?_⟩
  rcases List.mem_append.mp ha with ha | ha
  · exact h.answers a ha
  · rw [List.mem_singleton.mp ha]
    exact hsame

theorem CacheInv.lookup {s : CacheState} {l : Lookup} (h : CacheInv s)
    (hok : KeepsApart s (.lookup l)) : CacheInv (lookupStep l s) := by
  unfold lookupStep
  cases hv : validateRequest l.request with
  | error e => exact h
  | ok u =>
    cases he : l.entry s with
    | none => exact h.miss hv
    | some entry =>
      have hmem : (cacheKey l.request, entry) ∈ s.cache := by
        unfold Lookup.entry at he
        split at he
        · exact mem_of_lookup he
        · cases he
      simp only
      split
      · exact h.miss hv
      · split
        · exact h
        · split
          · refine h.answer ?_
            -- a hit: the entry stands under the key of its own request
            obtain ⟨hkey, horigin⟩ := h.keys _ hmem
            rcases hok _ hmem with hsame | hapart
            · exact hsame
            · exact absurd hkey ((cacheKey_ne_iff hv horigin).mpr hapart)
          · exact h.miss hv

theorem CacheInv.compute {s : CacheState} {p : Pending} {format : Format} {db : Database}
    {stored : Bool} (h : CacheInv s) (hv : validateRequest p.request = .ok ()) :
    CacheInv (computeStep p format db stored s) := by
  unfold computeStep
  split
  · exact h
  · rename_i quote _
    have hanswer : CacheInv { s with answers := s.answers ++ [⟨p.request, quote, p.request⟩] } :=
      h.answer (.refl _)
    cases p.useCache && stored with
    | false => exact hanswer
    | true =>
      refine ⟨fun q hq => ?_, hanswer.pending, hanswer.answers⟩
      rcases List.mem_cons.mp hq with rfl | hq
      · exact ⟨rfl, hv⟩
      · exact h.keys q (List.mem_of_mem_filter hq)

theorem CacheInv.step {s s' : CacheState} {a : CacheAction} (h : CacheInv s)
    (hok : KeepsApart s a) (hstep : cacheStep s a = some s') : CacheInv s' := by
  cases a with
  | lookup l =>
    cases hstep
    exact h.lookup hok
  | compute i format db stored =>
    obtain ⟨p, hp, rfl⟩ := Option.map_eq_some_iff.mp hstep
    refine CacheInv.compute ⟨h.keys, fun q hq => ?_, h.answers⟩
      (h.pending p (List.mem_of_getElem? hp))
    exact h.pending q (List.mem_of_mem_eraseIdx hq)
  | evict key =>
    cases hstep
    exact ⟨fun q hq => h.keys q (List.mem_of_mem_filter hq), h.pending, h.answers⟩

def sampleBasket (sku : String) : QuoteRequest where
  requestId := []
  tenantId := "tenant-acme".toList
  customerId := "customer-acme-ava".toList
  items := [⟨sku.toList, 1⟩]
  currencyCode := "USD".toList
  context := []

def sampleFormat : Format := ⟨some, fun _ _ h he => Option.some.inj he ▸ h⟩

def samplePrices : Database where
  now := 0
  available := true
  sequence _ := 7
  prices _ _ _ := [("Aa".toList, ⟨['a'], 100, "USD".toList, "default".toList⟩),
    ("BB".toList, ⟨['b'], 9900, "USD".toList, "default".toList⟩)]
  promotions := []

def sampleLookup (sku : String) : Lookup where
  request := sampleBasket sku
  useCache := true
  get := .reached
  now := 1000
  version := .ok "price-change-7".toList

end CommercePlayground.Pricing
