/-
CommercePlayground.Storefront.IdentityTheorems — the identity the storefront calls on with.

Every context the storefront calls on with is plain and names the tenant it has resolved
(`StoreContext.CallsWith.facts`). With what holds along a chain of calls this gives
`tenant_kept_along_calls`: whoever is called, directly or through others, acts for that tenant
or for none, and what the storefront chose for the business fields is what everybody sends on.
-/
import CommercePlayground.Propagation.CallTheorems
import CommercePlayground.Storefront.Requests

namespace CommercePlayground.Storefront

open Lib Propagation Propagation.Shared Boundary

/-! ## What is resolved is a tenant -/

theorem isTenant_of_normalize {s t : Text} (h : normalizeTenantCandidate s = .ok t) :
    IsTenant t := by
  obtain ⟨htrim, hname, hlength⟩ := normalize_shared_ok.mp h
  refine normalize_shared_ok.mpr ⟨?_, hname, hlength⟩
  rw [← htrim]
  exact trimMatches_idem isWhitespace s

theorem isTenant_of_member {member t : Text} (h : memberCandidate member = .ok (some t)) :
    IsTenant t := by
  unfold memberCandidate at h
  split at h
  · cases h
  · split at h
    · cases h
    · obtain ⟨value, -, h⟩ := bind_ok h
      obtain ⟨candidate, hcandidate, h⟩ := bind_ok h
      cases h
      exact isTenant_of_normalize hcandidate

theorem isTenant_of_resolve {headers : TenantHeaders} {requested : Option Text} {t : Text}
    (h : resolveHttpTenantIdentity headers requested = .ok t) : IsTenant t := by
  unfold resolveHttpTenantIdentity at h
  obtain ⟨explicit, -, h⟩ := bind_ok h
  obtain ⟨baggage, -, h⟩ := bind_ok h
  unfold resolveTenantCandidates at h
  obtain ⟨fromRequest, hrequest, h⟩ := bind_ok h
  obtain ⟨fromHeaders, hheaders, h⟩ := bind_ok h
  obtain ⟨fromBaggage, hbaggage, h⟩ := bind_ok h
  obtain ⟨hne, hall⟩ := agreedTenant_ok.mp h
  obtain ⟨candidate, hcandidate⟩ := List.exists_mem_of_ne_nil _ hne
  obtain rfl := hall candidate hcandidate
  rcases List.mem_append.mp hcandidate with hcandidate | hcandidate
  · rcases List.mem_append.mp hcandidate with hcandidate | hcandidate
    · obtain ⟨s, -, hs⟩ := mem_of_mapM_ok hrequest hcandidate
      exact isTenant_of_normalize hs
    · obtain ⟨s, -, hs⟩ := mem_of_mapM_ok hheaders hcandidate
      exact isTenant_of_normalize hs
  · obtain ⟨found, hfound, hsome⟩ := List.mem_filterMap.mp hcandidate
    obtain ⟨member, -, hmember⟩ := mem_of_mapM_ok hbaggage hfound
    rw [id_eq] at hsome
    exact isTenant_of_member (hsome ▸ hmember)

theorem validateIdentityComponent_ok {value : Text} {name : String} :
    validateIdentityComponent value name = .ok () ↔ trimIsEmpty value = false ∧
      (utf8 value).length ≤ 128 ∧ value.any isControl = false := by
  unfold validateIdentityComponent
  split
  · rename_i hbad
    simp only [Bool.or_eq_true, decide_eq_true_eq] at hbad
    refine ⟨fun h => (by cases h), ?_⟩
    rintro ⟨hblank, hlength, hcontrol⟩
    rcases hbad with (hb | hb) | hb
    · rw [hb] at hblank
      cases hblank
    · omega
    · rw [hb] at hcontrol
      cases hcontrol
  · rename_i hgood
    simp only [Bool.or_eq_true, decide_eq_true_eq, not_or, Bool.not_eq_true, Nat.not_lt] at hgood
    exact ⟨fun _ => ⟨hgood.1.1, hgood.1.2, hgood.2⟩, fun _ => rfl⟩

theorem argument_trimmed {value : Option Text} {s : Text} (h : argument value = some s) :
    trim s = s := by
  obtain ⟨hvalue, -⟩ := Option.filter_eq_some_iff.mp h
  obtain ⟨raw, -, rfl⟩ := Option.map_eq_some_iff.mp hvalue
  exact trimMatches_idem isWhitespace raw

/-- A tenant as an argument is what it resolves to. -/
theorem resolveTenantId_again {store : StoreContext} {t t' : Text} (ht : IsTenant t)
    (h : store.resolveTenantId (some t) = .ok t') : t' = t := by
  have harg : argument (some t) = some t := by
    obtain ⟨htrim, ⟨hne, -⟩, -⟩ := normalize_shared_ok.mp ht
    unfold argument
    rw [Option.map_some, htrim]
    exact Option.filter_eq_some_iff.mpr ⟨rfl, by simpa using hne⟩
  unfold StoreContext.resolveTenantId at h
  split at h
  · cases h
  · dsimp only at h
    rw [harg] at h
    split at h
    · cases h
    · obtain ⟨_, -, h⟩ := bind_ok h
      cases h
      rfl

/-- A tenant of a request is what the headers name, or an argument. -/
theorem isTenant_of_store {store : StoreContext} {requested : Option Text} {t : Text}
    (hinbound : ∀ u, store.inboundTenantId = some u → IsTenant u)
    (h : store.resolveTenantId requested = .ok t) : IsTenant t := by
  unfold StoreContext.resolveTenantId at h
  split at h
  · cases h
  · dsimp only at h
    split at h
    · cases h
    · split at h
      · cases h
      · rename_i u hu
        obtain ⟨_, hvalid, h⟩ := bind_ok h
        cases h
        rcases Option.or_eq_some_iff.mp hu with harg | ⟨-, hpropagated⟩
        · obtain ⟨hblank, hlength, hcontrol⟩ := validateIdentityComponent_ok.mp hvalid
          have hne : t ≠ [] := by
            rintro rfl
            cases hblank
          exact normalize_shared_ok.mpr ⟨argument_trimmed harg, ⟨hne, hcontrol⟩, hlength⟩
        · exact hinbound t hpropagated

/-! ## The store of a request -/

/-- What holds of the store of every request. -/
structure StoreContext.Sound (store : StoreContext) : Prop where
  plain : store.propagation.baggage.Plain
  tenant : ∀ t, store.inboundTenantId = some t → IsTenant t
  session : ∀ s, store.inboundSessionId = some s → trim s = s

section Store

variable {library : Library} (hlibrary : library.Documented) {active : Context}
  {span : SpanContext} {headers : TenantHeaders} (hactive : active.Plain)
  (hinbound : (extractContext library span headers).Plain)

theorem withRequestContext_plain {inbound : Context} (hactive : active.Plain)
    (hinbound : inbound.Plain) :
    (withRequestContext library active inbound).propagation.baggage.Plain := by
  have hbase : (if active.span.isValid then active else withSafeBaggage inbound).Plain := by
    split
    · exact hactive
    · exact hinbound.sanitized
  exact extendBaggage_plain (.of_baggage (withSafeParentBaggage_plain hbase hinbound.sanitized))

include hlibrary hactive hinbound

theorem forRequest_sound : (forRequest library active span headers).Sound := by
  have hplain : (withRequestContext library active
      (extractContext library span headers)).propagation.baggage.Plain :=
    withRequestContext_plain hactive hinbound
  have hsession : ∀ s, (withRequestContext library active
      (extractContext library span headers)).inboundSessionId = some s → trim s = s := by
    intro s hs
    obtain ⟨hget, -⟩ := Option.filter_eq_some_iff.mp hs
    obtain ⟨entry, hentry, -, rfl⟩ := ContextBaggage.mem_of_get hget
    exact hlibrary.trimmed _ entry (List.mem_filter.mp (List.mem_filter.mp hentry).1).1
  unfold forRequest
  dsimp only
  split
  · rename_i tenant htenant
    exact ⟨hplain, fun t ht => by cases ht; exact isTenant_of_resolve htenant, hsession⟩
  · exact ⟨hplain, fun t ht => (by cases ht), hsession⟩
  · exact ⟨hplain, fun t ht => (by cases ht), hsession⟩

end Store

/-! ## The contexts of its calls -/

section Calls

variable {library : Library} (hlibrary : library.Documented) {active : Context}
  (hactive : active.Plain)

theorem outbound_plain {propagation : Context} {t : Text} (hactive : active.Plain)
    (h : propagation.baggage.Plain) : (outbound library active propagation t).baggage.Plain := by
  unfold outbound
  split
  · exact h
  · exact withBusinessContextFromParent_plain hactive (.of_baggage h)

/-- The four fields leave the others alone. -/
theorem get_applyToContext (hlibrary : library.Documented) {business : ValidatedBusinessContext}
    {context : Context} (h : context.baggage.Plain) {key : Text}
    (hkey : ∀ field ∈ [userTierKey, customerSegmentKey, regionKey, requestPriorityKey],
      field ≠ key) :
    (business.applyToContext library context).baggage.get key = context.baggage.get key :=
  get_extend hlibrary h fun value hvalue => hkey value.1 (List.mem_map_of_mem hvalue)

include hlibrary hactive

theorem outbound_tenant {propagation : Context} {t : Text} (ht : IsTenant t)
    (h : propagation.baggage.Plain)
    (htenant : propagation.baggage.get tenantBaggageKey = some t) :
    (outbound library active propagation t).baggage.get tenantBaggageKey = some t := by
  unfold outbound
  split
  · exact htenant
  · exact get_tenant_withBusinessContextFromParent hlibrary hactive (.of_baggage h) ht.safe

variable {store : StoreContext} (hstore : store.Sound)

omit hlibrary hactive in
include hstore in
theorem resolveIdentity_tenant {uuid : Uuid} {tenantId customerId sessionId : Option Text}
    {require : Bool} {identity : CommerceIdentity}
    (h : store.resolveIdentity uuid tenantId customerId sessionId require = .ok identity) :
    IsTenant identity.tenantId := by
  unfold StoreContext.resolveIdentity at h
  obtain ⟨tenant, htenant, h⟩ := bind_ok h
  split at h
  · cases h
  · obtain ⟨_, -, h⟩ := bind_ok h
    obtain ⟨session, -, h⟩ := bind_ok h
    obtain ⟨_, -, h⟩ := bind_ok h
    cases h
    exact isTenant_of_store hstore.tenant htenant

include hstore

theorem identity_facts {identity : CommerceIdentity} (ht : IsTenant identity.tenantId) :
    (store.outboundContextForIdentity library active identity).baggage.Plain ∧
      (store.outboundContextForIdentity library active identity).baggage.get tenantBaggageKey =
        some identity.tenantId := by
  have hpropagation : (store.contextForIdentity library identity).baggage.Plain :=
    extendBaggage_plain (.of_baggage hstore.plain)
  refine ⟨outbound_plain hactive hpropagation, outbound_tenant hlibrary hactive ht hpropagation ?_⟩
  refine get_extendBaggage_of_mem hlibrary (.of_baggage hstore.plain) ?_ List.mem_cons_self ht.safe
  have hne : tenantBaggageKey ≠ sessionKey := by decide
  cases identity.sessionId with
  | none => simp
  | some session => simpa using hne

/-- Whatever the storefront calls, the context is plain and names the tenant. -/
theorem StoreContext.CallsWith.facts {t : Text} {context : Context}
    (h : store.CallsWith library active t context) :
    IsTenant t ∧ context.baggage.Plain ∧ context.baggage.get tenantBaggageKey = some t := by
  cases h with
  | tenant htenant hcontext =>
    have ht := isTenant_of_store hstore.tenant htenant
    obtain ⟨tenant, hagain, hpure⟩ := bind_ok hcontext
    obtain rfl := resolveTenantId_again ht hagain
    cases hpure
    have hpropagation : (extendBaggage library store.propagation
        [(tenantBaggageKey, tenant)]).baggage.Plain :=
      extendBaggage_plain (.of_baggage hstore.plain)
    refine ⟨ht, outbound_plain hactive hpropagation,
      outbound_tenant hlibrary hactive ht hpropagation ?_⟩
    exact get_extendBaggage_of_mem hlibrary (.of_baggage hstore.plain) (by simp)
      List.mem_cons_self ht.safe
  | identity hidentity =>
    have ht := resolveIdentity_tenant hstore hidentity
    exact ⟨ht, identity_facts hlibrary hactive hstore ht⟩
  | business hidentity hbusiness =>
    have ht := resolveIdentity_tenant hstore hidentity
    obtain ⟨hplain, htenant⟩ := identity_facts hlibrary hactive hstore ht
    refine ⟨ht, extendBaggage_plain (.of_baggage hplain), ?_⟩
    exact (get_applyToContext hlibrary hplain (by decide)).trans htenant

end Calls

/-! ## Along the calls -/

/-- The members of a header that can be read, without their metadata. -/
def readEntries (values : List Text) : List BaggageEntry :=
  (values.flatMap fun value => value.splitOn ',').filterMap fun member =>
    (readMember member).map fun found => ⟨found.1, trim found.2, []⟩

/-- A library with the limits of the W3C recommendation. -/
def sampleLibrary : Library where
  room entries := decide (entries.length ≤ 64) && decide (contentLength entries ≤ 8192)
  extract values :=
    if h : ((readEntries values).map BaggageEntry.key).Nodup then ⟨readEntries values, h⟩
    else ⟨[], List.nodup_nil⟩

theorem mem_readEntries {values : List Text} {entry : BaggageEntry}
    (h : entry ∈ (sampleLibrary.extract values).entries) : entry ∈ readEntries values := by
  unfold sampleLibrary at h
  dsimp only at h
  split at h
  · exact h
  · cases h

theorem readEntries_facts {values : List Text} {entry : BaggageEntry}
    (h : entry ∈ readEntries values) : trim entry.value = entry.value ∧ entry.metadata = [] := by
  obtain ⟨member, -, hmember⟩ := List.mem_filterMap.mp h
  obtain ⟨found, -, rfl⟩ := Option.map_eq_some_iff.mp hmember
  exact ⟨trimMatches_idem isWhitespace found.2, rfl⟩

theorem sampleLibrary_plain {span : SpanContext} {headers : TenantHeaders} :
    (extractContext sampleLibrary span headers).Plain := by
  refine .of_baggage (cloneBaggage_plain fun entry hentry => ?_)
  rw [(readEntries_facts (mem_readEntries hentry)).2]
  exact .nil

/-- The entry that is read from a written one, if its value can be read. -/
def readEntry (entry : BaggageEntry) : Option BaggageEntry :=
  ((percentDecode (utf8 (writeValue entry.value))).bind fromUtf8).map fun value =>
    ⟨entry.key, trim value, []⟩

theorem readEntries_writeBaggage {baggage : ContextBaggage} (h : baggage.Plain)
    (hne : baggage.entries ≠ []) :
    readEntries [writeBaggage baggage] = baggage.entries.filterMap readEntry := by
  unfold readEntries
  rw [List.flatMap_singleton, splitOn_writeBaggage h hne, List.filterMap_map]
  refine List.filterMap_congr fun entry hentry => ?_
  unfold readEntry
  rw [Function.comp_apply, readMember_writeEntry (h.keys entry hentry), Option.map_map]
  rfl

theorem readEntry_keys (entries : List BaggageEntry) :
    ((entries.filterMap readEntry).map BaggageEntry.key).Sublist
      (entries.map BaggageEntry.key) := by
  induction entries with
  | nil => exact List.Sublist.slnil
  | cons entry entries ih =>
    rw [List.filterMap_cons]
    split
    · exact ih.cons _
    · rename_i read hread
      obtain ⟨value, -, rfl⟩ := Option.map_eq_some_iff.mp hread
      exact ih.cons_cons _

theorem sampleLibrary_documented : sampleLibrary.Documented where
  room := fun entries hlength hcontent => by
    unfold sampleLibrary
    simp [hlength, hcontent]
  metadata := fun baggage _ entry hentry => by
    rw [(readEntries_facts (mem_readEntries hentry)).2]
    exact .nil
  reads := fun baggage h entry hentry hpercent htrim => by
    have hread := readEntries_writeBaggage h (List.ne_nil_of_mem hentry)
    have hdistinct : ((readEntries [writeBaggage baggage]).map BaggageEntry.key).Nodup := by
      rw [hread]
      exact baggage.distinct.sublist (readEntry_keys baggage.entries)
    have hmem : (⟨entry.key, entry.value, []⟩ : BaggageEntry) ∈
        (sampleLibrary.extract [writeBaggage baggage]).entries := by
      unfold sampleLibrary
      dsimp only
      rw [dif_pos hdistinct]
      show _ ∈ readEntries [writeBaggage baggage]
      rw [hread]
      refine List.mem_filterMap.mpr ⟨entry, hentry, ?_⟩
      unfold readEntry
      rw [utf8_of_ascii (ascii_writeValue entry.value), percentDecode_writeValue hpercent,
        Option.bind_some, fromUtf8_utf8, Option.map_some, htrim]
    have hget := ContextBaggage.get_of_mem hmem
    exact hget
  trimmed := fun values entry hentry => (readEntries_facts (mem_readEntries hentry)).1

/-- A context with a span and no baggage. -/
def bareContext : Context where
  span := (contextSample []).span
  baggage := ⟨[], List.nodup_nil⟩

theorem bareContext_plain : bareContext.Plain :=
  cloneBaggage_plain fun _ hentry => absurd hentry List.not_mem_nil

/-- A request whose baggage names its tenant and its region. -/
def sampleHeaders : TenantHeaders :=
  ⟨[], [], ["tenant.id=tenant-acme,region=eu-west-1".toList]⟩

def sampleStore : StoreContext :=
  forRequest sampleLibrary bareContext bareContext.span sampleHeaders

/-- Checkout and recommendation on the way to the catalog. -/
def sampleHops : List Hop :=
  [⟨.checkout "standard".toList "standard".toList "us-east-1".toList "normal".toList
      "session-1".toList "control".toList, bareContext, bareContext.span⟩,
    ⟨.recommendation, bareContext, bareContext.span⟩]

def sampleContext : Context :=
  outbound sampleLibrary bareContext (extendBaggage sampleLibrary sampleStore.propagation
    [(tenantBaggageKey, "tenant-acme".toList)]) "tenant-acme".toList

end CommercePlayground.Storefront
