/-
CommercePlayground.Storefront.RequestTheorems — what becomes of the quotes of the storefront.

The storefront checks its arguments before it calls, and pricing checks the request again.
`storefront_quotes_admitted`: what the storefront has let through passes every check of
pricing, so that pricing refuses a quote for nothing but a tenant with a `%`.
-/
import CommercePlayground.Storefront.IdentityTheorems

namespace CommercePlayground.Storefront

open Lib Propagation Propagation.Shared Boundary

/-! ## Arguments -/

theorem guard_ok_iff {ε α : Type} {c : Prop} [Decidable c] {e : ε} {x : Except ε α} {a : α} :
    (if c then .error e else x) = .ok a ↔ ¬ c ∧ x = .ok a := by
  split
  · rename_i hc
    exact ⟨fun h => (by cases h), fun h => absurd hc h.1⟩
  · rename_i hc
    exact ⟨fun h => ⟨hc, h⟩, fun h => h.2⟩

/-- What `validate_identity_component` lets through. -/
def Bounded (value : Text) : Prop :=
  trimIsEmpty value = false ∧ (utf8 value).length ≤ 128 ∧ value.any isControl = false

/-- An item as pricing reads it. -/
def quoteItem (item : CartItemInput) : Pricing.QuoteItem := ⟨item.sku, item.quantity.toNat⟩

theorem validateItemList_cons {operation : String} {skus : List Text} {item : CartItemInput}
    {items : List CartItemInput} :
    validateItemList operation skus (item :: items) = .ok () ↔
      Bounded item.sku ∧ (0 < item.quantity ∧ item.quantity ≤ 100) ∧
        item.sku ∉ skus ∧ validateItemList operation (item.sku :: skus) items = .ok () := by
  rw [validateItemList, bind_ok_iff]
  simp only [guard_ok_iff, List.contains_iff_mem, not_or, not_le, not_lt, maxCartItemQuantity]
  constructor
  · rintro ⟨_, hsku, hquantity, hnew, hrest⟩
    exact ⟨validateIdentityComponent_ok.mp hsku, hquantity, hnew, hrest⟩
  · rintro ⟨hsku, hquantity, hnew, hrest⟩
    exact ⟨(), validateIdentityComponent_ok.mpr hsku, hquantity, hnew, hrest⟩

/-- The items that the storefront lets through are those that pricing takes. -/
theorem items_admitted {operation : String} {skus : List Text} {items : List CartItemInput}
    (h : validateItemList operation skus items = .ok ()) :
    Pricing.validateItems skus (items.map quoteItem) = .ok () := by
  induction items generalizing skus with
  | nil => rfl
  | cons item items ih =>
    obtain ⟨⟨hblank, hlength, -⟩, hquantity, hnew, hrest⟩ := validateItemList_cons.mp h
    have hcount : ¬ (item.quantity.toNat = 0 ∨ 100 < item.quantity.toNat) := by omega
    have hvalid : ¬ (trimIsEmpty item.sku || decide (128 < (utf8 item.sku).length)) = true := by
      rw [hblank, Bool.false_or, decide_eq_true_eq]
      omega
    rw [List.map_cons, Pricing.validateItems]
    exact guard_ok_iff.mpr ⟨hvalid, guard_ok_iff.mpr ⟨hcount,
      guard_ok_iff.mpr ⟨by simpa [quoteItem] using hnew, ih hrest⟩⟩⟩

/-- The items of a valid request. -/
theorem validateItems_facts {operation : String} {items : List CartItemInput}
    (h : validateItems operation items = .ok ()) : items ≠ [] ∧ items.length ≤ 50 ∧
      validateItemList operation [] items = .ok () := by
  unfold validateItems at h
  obtain ⟨hcount, hitems⟩ := guard_ok_iff.mp h
  rw [Bool.not_eq_true, Bool.or_eq_false_iff, decide_eq_false_iff_not] at hcount
  exact ⟨by simpa using hcount.1, by omega, hitems⟩

/-- `quote` checks its items twice and passes them on. -/
theorem items_mapM {items : List CartItemInput} {items' : List Pricing.QuoteItem}
    (hitems : (items.mapM fun item =>
      if trimIsEmpty item.sku = true ∨ item.quantity ≤ 0 then
        (.error "each quote item needs a SKU and positive quantity" : Except String _)
      else .ok (quoteItem item)) = .ok items') : items' = items.map quoteItem := by
  have hmap := map_of_mapM_ok (g := id) (k := quoteItem) hitems fun item _ found hfound => by
    exact (Except.ok.inj (guard_ok_iff.mp hfound).2).symm
  rwa [List.map_id] at hmap

theorem currency_admitted {code : Text} (h : validateCurrencyCode code = .ok ()) :
    Pricing.isCurrencyCode code = true := by
  unfold validateCurrencyCode at h
  have hcode := (guard_ok_iff.mp h).1
  unfold Pricing.isCurrencyCode
  simpa [and_assoc] using hcode

/-! ## The business context -/

/-- What `validated_business_context` lets through. -/
structure ValidatedBusinessContext.Sound (business : ValidatedBusinessContext) : Prop where
  segment : Bounded business.segment
  tier : Bounded business.tier
  region : Bounded business.region
  priority : Bounded business.priority
  promotionCode : ∀ code, business.promotionCode = some code → Bounded code
  pricingStrategy : business.pricingStrategy = "standard".toList ∨
    business.pricingStrategy = "promotional".toList

theorem validatedContextValue_bounded {override : Option Text} {context : Context}
    {key default value : Text} {name : String}
    (h : validatedContextValue override context key default name = .ok value) :
    Bounded value := by
  obtain ⟨_, hvalid, h⟩ := bind_ok h
  cases h
  exact validateIdentityComponent_ok.mp hvalid

theorem component_of_forM {value : Option Text} {name : String} {u : Unit}
    (h : (value.forM fun value => validateIdentityComponent value name) = .ok u) :
    ∀ s, value = some s → Bounded s := by
  rintro s rfl
  exact validateIdentityComponent_ok.mp h

theorem validatedBusinessContext_sound {context : Context} {input : BusinessContextInput}
    {business : ValidatedBusinessContext}
    (h : validatedBusinessContext context input = .ok business) : business.Sound := by
  obtain ⟨segment, hsegment, h⟩ := bind_ok h
  obtain ⟨tier, htier, h⟩ := bind_ok h
  obtain ⟨region, hregion, h⟩ := bind_ok h
  obtain ⟨priority, hpriority, h⟩ := bind_ok h
  obtain ⟨_, hpromotion, h⟩ := bind_ok h
  obtain ⟨hstrategy, h⟩ := guard_ok_iff.mp h
  obtain ⟨-, h⟩ := guard_ok_iff.mp h
  obtain ⟨-, h⟩ := guard_ok_iff.mp h
  obtain ⟨method, -, h⟩ := bind_ok h
  cases h
  exact ⟨validatedContextValue_bounded hsegment, validatedContextValue_bounded htier,
    validatedContextValue_bounded hregion, validatedContextValue_bounded hpriority,
    component_of_forM hpromotion, by simpa only [not_and_or, not_not] using hstrategy⟩

/-- A value that pricing lets through. -/
def FitsContext (value : Text) : Prop := (utf8 value).length ≤ 128 ∧ value.any isControl = false

theorem pricingContext_fits {business : ValidatedBusinessContext} (h : business.Sound) :
    ∀ field ∈ business.pricingContext, FitsContext field.2 := by
  have hbounded : ∀ value, Bounded value → FitsContext value :=
    fun value hvalue => hvalue.2
  have hstrategy : FitsContext business.pricingStrategy := by
    rcases h.pricingStrategy with heq | heq
    · rw [heq]
      exact ⟨by decide, by decide⟩
    · rw [heq]
      exact ⟨by decide, by decide⟩
  have hmethod : ∀ method, FitsContext (paymentMethodTypeName method) := by
    intro method
    cases method with
    | unspecified => exact ⟨by decide, by decide⟩
    | card => exact ⟨by decide, by decide⟩
    | bankAccount => exact ⟨by decide, by decide⟩
    | wallet => exact ⟨by decide, by decide⟩
    | unrecognized => exact ⟨by decide, by decide⟩
  intro field hfield
  unfold ValidatedBusinessContext.pricingContext at hfield
  rcases List.mem_append.mp hfield with hfield | hfield
  · simp only [List.mem_cons, List.not_mem_nil, or_false] at hfield
    rcases hfield with rfl | rfl | rfl | rfl | rfl | rfl
    · exact hbounded _ h.segment
    · exact hbounded _ h.tier
    · exact hbounded _ h.region
    · exact hbounded _ h.priority
    · exact hstrategy
    · exact hmethod _
  · obtain ⟨code, hcode, rfl⟩ := Option.map_eq_some_iff.mp (Option.mem_toList.mp hfield)
    exact hbounded code (h.promotionCode code hcode)

theorem mem_of_lookup {key value : Text} {fields : List (Text × Text)}
    (h : fields.lookup key = some value) : (key, value) ∈ fields := by
  induction fields with
  | nil => cases h
  | cons field fields ih =>
    rw [List.lookup_cons] at h
    split at h
    · rename_i hkey
      cases h
      rw [eq_of_beq hkey]
      exact List.mem_cons_self
    · exact List.mem_cons_of_mem field (ih h)

theorem validateContext_ok {request : Pricing.QuoteRequest} {names : List String}
    (h : ∀ field ∈ request.context, FitsContext field.2) :
    Pricing.validateContext request names = .ok () := by
  induction names with
  | nil => rfl
  | cons name names ih =>
    rw [Pricing.validateContext]
    cases hget : request.get name with
    | none => exact ih
    | some value =>
      obtain ⟨hlength, hcontrol⟩ := h _ (mem_of_lookup hget)
      refine guard_ok_iff.mpr ⟨?_, ih⟩
      dsimp only at hlength hcontrol
      rw [hcontrol, Bool.or_false, decide_eq_true_eq]
      unfold Pricing.maxIdentifierLength
      omega

/-! ## A quote -/

/-- What `quote` sends. -/
structure SentQuote (request : Pricing.QuoteRequest) : Prop where
  customer : Bounded request.customerId
  items : request.items ≠ [] ∧ request.items.length ≤ 50 ∧
    Pricing.validateItems [] request.items = .ok ()
  currency : Pricing.isCurrencyCode request.currencyCode = true
  context : ∃ business : ValidatedBusinessContext, business.Sound ∧
    request.context = business.pricingContext

theorem SentQuote.valid {request : Pricing.QuoteRequest} (h : SentQuote request)
    (ht : IsTenant request.tenantId) : Pricing.validateRequest request = .ok () := by
  obtain ⟨hblank, hlength, -⟩ := h.customer
  obtain ⟨hne, hcount, hitems⟩ := h.items
  obtain ⟨business, hsound, hcontext⟩ := h.context
  have htenant := normalize_shared_ok.mp ht
  have hfits : ∀ field ∈ request.context, FitsContext field.2 :=
    hcontext ▸ pricingContext_fits hsound
  have hstrategy : request.get "pricing_strategy" = some business.pricingStrategy := by
    unfold Pricing.QuoteRequest.get
    rw [hcontext]
    rfl
  unfold Pricing.validateRequest
  refine guard_ok_iff.mpr ⟨by simp [ht.not_blank], guard_ok_iff.mpr ⟨by omega,
    guard_ok_iff.mpr ⟨by simp [hblank], guard_ok_iff.mpr ⟨?_, guard_ok_iff.mpr ⟨by simpa using hne,
      guard_ok_iff.mpr ⟨?_, guard_ok_iff.mpr ⟨by simp [h.currency], ?_⟩⟩⟩⟩⟩⟩⟩
  · unfold Pricing.maxIdentifierLength
    omega
  · unfold Pricing.maxItems
    omega
  · rw [hitems, validateContext_ok hfits, hstrategy]
    show (if _ then _ else _) = _
    rw [if_pos hsound.pricingStrategy]
    rfl

theorem resolveIdentity_customer {store : StoreContext} {uuid : Uuid}
    {tenantId customerId sessionId : Option Text} {require : Bool} {identity : CommerceIdentity}
    (h : store.resolveIdentity uuid tenantId customerId sessionId require = .ok identity) :
    Bounded identity.customerId := by
  unfold StoreContext.resolveIdentity at h
  obtain ⟨tenant, -, h⟩ := bind_ok h
  split at h
  · cases h
  · obtain ⟨_, hcustomer, h⟩ := bind_ok h
    obtain ⟨session, -, h⟩ := bind_ok h
    obtain ⟨_, -, h⟩ := bind_ok h
    cases h
    exact validateIdentityComponent_ok.mp hcustomer

theorem quote_sent {library : Library} {store : StoreContext} {active : Context} {uuid : Uuid}
    {input : QuoteInput} {request : Pricing.QuoteRequest} {context : Context}
    (h : store.quote library active uuid input = .ok (request, context)) :
    SentQuote request ∧ store.CallsWith library active request.tenantId context := by
  obtain ⟨identity, hidentity, h⟩ := bind_ok h
  obtain ⟨_, hvalid, h⟩ := bind_ok h
  obtain ⟨items, hitems, h⟩ := bind_ok h
  obtain ⟨code, -, h⟩ := bind_ok h
  obtain ⟨_, hcurrency, h⟩ := bind_ok h
  obtain ⟨business, hbusiness, h⟩ := bind_ok h
  cases h
  obtain ⟨hne, hcount, hlist⟩ := validateItems_facts hvalid
  obtain rfl := items_mapM hitems
  refine ⟨⟨resolveIdentity_customer hidentity, ⟨by simpa using hne, by simpa using hcount,
    items_admitted hlist⟩, currency_admitted hcurrency, business,
      validatedBusinessContext_sound hbusiness, rfl⟩, ?_⟩
  exact .business hidentity hbusiness

def quoteUuid : Uuid := ⟨"00000000-0000-4000-8000-000000000001".toList, by decide, by decide⟩

def sampleBusiness : BusinessContextInput := ⟨none, none, none, none, none, none, none⟩

def sampleQuote : QuoteInput where
  items := [⟨"sku-1".toList, 2⟩, ⟨"sku-2".toList, 1⟩]
  tenantId := none
  customerId := some "customer-1".toList
  currencyCode := some "EUR".toList
  business := sampleBusiness
  requestId := none

end CommercePlayground.Storefront
