/-
CommercePlayground.Propagation.CallTheorems — the tenant along a chain of calls.

A service never acts for a tenant other than the one of the request it got
(`callChain_only`), and it accepts the request if the baggage reads back as that tenant. The
baggage does so exactly when the tenant has no `%`, which the propagator writes as it is and
the reader takes for an escape (`shared_written_iff`). From one call to the next the context
stays plain, names the tenant and keeps what was chosen before (`callChain_accepts`).
-/
import CommercePlayground.Propagation.BusinessTheorems
import CommercePlayground.Propagation.ResolutionTheorems

namespace CommercePlayground.Propagation

open Lib Shared

/-! ## The tenant of the request -/

/-- A tenant as every resolver returns it. -/
def IsTenant (t : Text) : Prop := normalizeTenantCandidate t = .ok t

theorem IsTenant.safe {t : Text} (h : IsTenant t) :
    isSafeBaggageEntry tenantBaggageKey t = true := by
  obtain ⟨-, ⟨-, hcontrol⟩, hlength⟩ := normalize_shared_ok.mp h
  have hkey : safeBusinessBaggageKeys.contains tenantBaggageKey = true := by decide
  unfold isSafeBaggageEntry maxBusinessBaggageValueLength
  rw [hkey, hcontrol, decide_eq_true hlength]
  rfl

theorem ends_of_trimmed {s : Text} (h : trim s = s) : EndsOutside isWhitespace s := by
  have hends := trimMatches_ends isWhitespace s
  unfold trim at h
  rwa [h] at hends

theorem not_blank_of_trimmed {s : Text} (h : trim s = s) (hne : s ≠ []) :
    trimIsEmpty s = false := by
  have hhead := (ends_of_trimmed h).1
  cases s with
  | nil => exact absurd rfl hne
  | cons c rest => exact List.all_eq_false.mpr ⟨c, List.mem_cons_self, by simp [hhead c rfl]⟩

theorem IsTenant.not_blank {t : Text} (h : IsTenant t) : trimIsEmpty t = false := by
  obtain ⟨htrim, ⟨hne, -⟩, -⟩ := normalize_shared_ok.mp h
  exact not_blank_of_trimmed htrim hne

/-- What both languages strip is gone, so that the catalog reads it alike. -/
theorem IsTenant.catalog {t : Text} (h : IsTenant t) : CatalogService.normalize t = .ok t := by
  obtain ⟨htrim, hname, hlength⟩ := normalize_shared_ok.mp h
  have hends := ends_of_trimmed htrim
  have hchar : ∀ c ∈ t, isWhitespace c = false → isTrimmed c = false := by
    intro c hc hspace
    have hcontrol : isControl c = false :=
      List.any_eq_false.mp hname.2 c hc |> Bool.eq_false_iff.mpr
    simp only [isWhitespace, isControl, isTrimmed, Bool.or_eq_false_iff,
      decide_eq_false_iff_not] at hspace hcontrol ⊢
    omega
  refine normalize_catalog_ok.mpr ⟨trimMatches_of_ends ⟨fun c hc => ?_, fun c hc => ?_⟩, hname,
    (utf16_length_le t).trans hlength⟩
  · exact hchar c (List.mem_of_head? hc) (hends.1 c hc)
  · exact hchar c (List.mem_of_getLast? hc) (hends.2 c hc)

/-- The library answers with the tenant of the request, or not at all. -/
theorem IsTenant.shared_only {t t' : Text} (h : IsTenant t) {headers : TenantHeaders}
    (hok : resolveHttpTenantIdentity headers (some t) = .ok t') : t' = t := by
  unfold resolveHttpTenantIdentity at hok
  obtain ⟨_, -, hok⟩ := bind_ok hok
  obtain ⟨_, -, hok⟩ := bind_ok hok
  unfold resolveTenantCandidates at hok
  obtain ⟨requested, hrequested, hok⟩ := bind_ok hok
  obtain ⟨_, -, hok⟩ := bind_ok hok
  obtain ⟨_, -, hok⟩ := bind_ok hok
  have hone : requested = [t] := by
    rw [Option.toList_some, List.mapM_cons, h] at hrequested
    cases hrequested
    rfl
  exact ((agreedTenant_ok.mp hok).2 t (by simp [hone])).symm

/-- And so does the catalog. -/
theorem IsTenant.catalog_only {t t' : Text} (h : IsTenant t)
    {identity : CatalogService.CatalogRequestIdentity}
    (hok : CatalogService.resolve identity (some t) = .ok t') : t' = t := by
  unfold CatalogService.resolve at hok
  split at hok
  · cases hok
  · rw [Option.toList_some, List.mapM_cons, h.catalog] at hok
    exact ((fromCandidates_ok.mp hok).2 t (by simp)).symm

theorem mapError_ok {ε ε' α : Type} {f : ε → ε'} {x : Except ε α} {a : α} :
    x.mapError f = .ok a ↔ x = .ok a := by
  cases x with
  | error e => exact ⟨fun h => (by cases h), fun h => (by cases h)⟩
  | ok b => exact ⟨fun h => (by cases h; rfl), fun h => (by cases h; rfl)⟩

theorem Relay.resolve_only {t t' : Text} (h : IsTenant t) {headers : TenantHeaders}
    {relay : Relay} (hok : relay.resolve headers t = .ok t') : t' = t := by
  cases relay with
  | checkout tier segment region priority sessionId variant =>
    unfold Relay.resolve at hok
    dsimp only at hok
    rw [h.not_blank, if_neg Bool.false_ne_true] at hok
    exact h.shared_only (mapError_ok.mp hok)
  | recommendation => exact h.shared_only (mapError_ok.mp hok)

theorem Endpoint.resolve_only {t t' : Text} (h : IsTenant t) {headers : TenantHeaders}
    {endpoint : Endpoint} (hok : endpoint.resolve headers t = .ok t') : t' = t := by
  cases endpoint with
  | inventory =>
    unfold Endpoint.resolve at hok
    dsimp only at hok
    rw [h.not_blank, if_neg Bool.false_ne_true] at hok
    exact h.shared_only (mapError_ok.mp hok)
  | pricing => exact h.shared_only (mapError_ok.mp hok)
  | catalog => exact h.catalog_only hok

/-- No service on the way acts for another tenant. -/
theorem callChain_only {library : Library} {endpoint : Endpoint} {hops : List Hop}
    {headers : TenantHeaders} {t last : Text} {acted : List Acted} (h : IsTenant t)
    (hok : callChain library endpoint hops headers t = .ok (acted, last)) :
    last = t ∧ ∀ a ∈ acted, a.tenant = t := by
  induction hops generalizing headers acted with
  | nil =>
    obtain ⟨tenant, htenant, hok⟩ := bind_ok hok
    cases hok
    exact ⟨Endpoint.resolve_only h htenant, fun a ha => absurd ha List.not_mem_nil⟩
  | cons hop hops ih =>
    obtain ⟨tenant, htenant, hok⟩ := bind_ok hok
    obtain ⟨next, -, hok⟩ := bind_ok hok
    obtain ⟨⟨rest, end'⟩, hrest, hok⟩ := bind_ok hok
    cases hok
    obtain rfl := Relay.resolve_only h htenant
    obtain ⟨hlast, hacted⟩ := ih hrest
    refine ⟨hlast, fun a ha => ?_⟩
    rcases List.mem_cons.mp ha with rfl | ha
    · rfl
    · exact hacted a ha

/-! ## The header -/

theorem trim_of_visible {s : Text} (h : ∀ c ∈ s, 0x21 ≤ c.toNat ∧ c.toNat ≤ 0x7e) :
    trim s = s := by
  have hchar : ∀ c ∈ s, isWhitespace c = false := by
    intro c hc
    have := h c hc
    simp only [isWhitespace, Bool.or_eq_false_iff, decide_eq_false_iff_not]
    omega
  exact trimMatches_of_ends ⟨fun c hc => hchar c (List.mem_of_head? hc),
    fun c hc => hchar c (List.mem_of_getLast? hc)⟩

/-- What the resolvers take from a written entry. -/
theorem memberSource_writeEntry {entry : BaggageEntry}
    (hkey : entry.key ∈ safeBusinessBaggageKeys) : memberSource (writeEntry entry) =
      if entry.key = tenantBaggageKey then some (.baggage (writeValue entry.value))
      else none := by
  have hfacts := (safe_key_facts entry.key hkey).2.2
  have hsplit : splitOnce '=' (writeEntry entry) = some (entry.key, writeValue entry.value ++
      if entry.metadata.isEmpty then [] else ';' :: entry.metadata) := by
    unfold writeEntry
    rw [List.append_assoc]
    exact splitOnce_append (fun hmem => (hfacts '=' hmem).2.2.1 rfl) _
  have hsemicolon : ';' ∉ writeValue entry.value := fun hmem =>
    (isVerbatim_iff.mp (isVerbatim_writeValue hmem)).2.2.1 rfl
  have hpiece : (valuePieces (writeValue entry.value ++
      if entry.metadata.isEmpty then [] else ';' :: entry.metadata)).1 =
        writeValue entry.value := by
    rw [valuePieces_eq]
    by_cases hempty : entry.metadata.isEmpty = true
    · rw [if_pos hempty, List.append_nil, splitOnce_of_not_mem hsemicolon]
    · rw [if_neg hempty, splitOnce_append hsemicolon]
  unfold memberSource
  rw [hsplit]
  dsimp only
  rw [trim_of_visible fun c hc => (hfacts c hc).1]
  unfold valuePieces at hpiece
  dsimp only at hpiece
  rw [hpiece, trim_of_visible fun c hc => (isVerbatim_iff.mp (isVerbatim_writeValue hc)).1]

theorem headersOf_eq {context : Context} {t : Text} {named : List Text}
    (h : context.baggage.Plain) (htenant : context.baggage.get tenantBaggageKey = some t) :
    headersOf context named = ⟨named, [], [writeBaggage context.baggage]⟩ := by
  obtain ⟨entry, hentry, -, -⟩ := ContextBaggage.mem_of_get htenant
  have hempty : context.baggage.entries.isEmpty = false := by
    simpa using List.ne_nil_of_mem hentry
  have hprintable : Printable (writeBaggage context.baggage) :=
    printable_writeBaggage h.keys fun entry hentry => (h.metadata entry hentry).printable
  have hbaggage : (injectContextHeaders context).baggage = [writeBaggage context.baggage] := by
    have hkept : (injectContextHeaders context).baggage =
        (injectContext (withSafeBaggage context)).baggage := by
      unfold injectContextHeaders addDefaultTracestateHeader
      split
      · rfl
      · rfl
    rw [hkept]
    unfold injectContext withSafeBaggage
    dsimp only
    rw [h.clone, hempty, if_neg Bool.false_ne_true, headerValue_printable hprintable]
  unfold headersOf
  rw [hbaggage]

/-- The members of the header are the written entries. -/
theorem splitOn_writeBaggage {baggage : ContextBaggage} (h : baggage.Plain)
    (hne : baggage.entries ≠ []) :
    (writeBaggage baggage).splitOn ',' = baggage.entries.map writeEntry := by
  have hjoin : writeBaggage baggage = joinMembers (baggage.entries.map BaggageEntry.parts) := by
    unfold writeBaggage joinMembers
    rw [List.map_map]
    rfl
  rw [hjoin, splitOn_joinMembers, List.map_map]
  · rfl
  · simpa using hne
  · intro parts hparts
    obtain ⟨entry, hentry, rfl⟩ := List.mem_map.mp hparts
    exact written_parts (h.keys entry hentry)
  · intro parts hparts
    obtain ⟨entry, hentry, rfl⟩ := List.mem_map.mp hparts
    exact (h.metadata entry hentry).comma

/-- The sources of a request with these headers: the request itself, the header where there is
one, and the entry of the baggage. -/
theorem mem_sources_headersOf {context : Context} {t requested : Text} {named : List Text}
    (h : context.baggage.Plain) (htenant : context.baggage.get tenantBaggageKey = some t)
    (source : Source) :
    source ∈ sources (headersOf context named) (some requested) ↔
      source = .text requested ∨ (∃ value ∈ named, source = .text value) ∨
        source = .baggage (writeValue t) := by
  obtain ⟨tenant, hmem, hkey, rfl⟩ := ContextBaggage.mem_of_get htenant
  have hsplit := splitOn_writeBaggage h (List.ne_nil_of_mem hmem)
  have hmembers : source ∈ (context.baggage.entries.map writeEntry).filterMap memberSource ↔
      source = .baggage (writeValue tenant.value) := by
    rw [List.mem_filterMap]
    constructor
    · rintro ⟨member, hmember, hsource⟩
      obtain ⟨entry, hentry, rfl⟩ := List.mem_map.mp hmember
      rw [memberSource_writeEntry (h.keys entry hentry)] at hsource
      split at hsource
      · rename_i hentryKey
        have hvalue := ContextBaggage.get_of_mem hentry
        rw [hentryKey, htenant] at hvalue
        cases hsource
        rw [Option.some.inj hvalue]
      · cases hsource
    · rintro rfl
      refine ⟨writeEntry tenant, List.mem_map_of_mem hmem, ?_⟩
      rw [memberSource_writeEntry (h.keys tenant hmem), if_pos hkey]
  unfold sources
  rw [headersOf_eq h htenant]
  simp only [Option.toList_some, List.map_cons, List.map_nil, List.append_nil, List.flatMap_cons,
    List.flatMap_nil, hsplit, List.mem_append, List.mem_singleton, List.mem_map, hmembers]
  simp only [eq_comm]

/-! ## One call -/

theorem utf8_length_trim (s : Text) : (utf8 (trim s)).length ≤ (utf8 s).length := by
  obtain ⟨a, b, hs, -, -⟩ := trimMatches_between isWhitespace s
  unfold trim
  conv_rhs => rw [hs]
  rw [utf8_length_append, utf8_length_append]
  omega

/-- A tenant that is written reads as itself exactly when it has no `%`. -/
theorem shared_written_iff {t : Text} (h : IsTenant t) :
    (Source.baggage (writeValue t)).shared = .ok t ↔ '%' ∉ t := by
  rw [baggage_shared, utf8_of_ascii (ascii_writeValue t)]
  constructor
  · rintro ⟨bytes, s, hbytes, hs, hnormal⟩ hpercent
    have hshorter := (percentDecode_shorter hbytes).2 hpercent
    have hle := utf8_length_trim s
    rw [(normalize_shared_ok.mp hnormal).1, ← fromUtf8_eq_some_iff.mp hs] at hle
    omega
  · intro hpercent
    exact ⟨utf8 t, t, percentDecode_writeValue hpercent, fromUtf8_utf8 t, h⟩

theorem catalog_written {t : Text} (h : IsTenant t) (hpercent : '%' ∉ t) :
    (Source.baggage (writeValue t)).catalog = .ok t := by
  rw [baggage_catalog, utf8_of_ascii (ascii_writeValue t)]
  refine ⟨utf8 t, percentDecode_writeValue hpercent, ?_⟩
  rw [replacedUtf8_of_fromUtf8 (fromUtf8_utf8 t)]
  exact h.catalog

section Call

variable {context : Context} {t : Text} {named : List Text} (ht : IsTenant t)
  (h : context.baggage.Plain) (htenant : context.baggage.get tenantBaggageKey = some t)
  (hnamed : ∀ value ∈ named, value = t ∧ Printable value)

include h htenant hnamed

theorem printable_headersOf : (headersOf context named).Printable := by
  rw [headersOf_eq h htenant]
  refine ⟨fun value hvalue => (hnamed value hvalue).2, fun value hvalue => ?_,
    fun value hvalue => ?_⟩
  · exact absurd hvalue List.not_mem_nil
  · rw [List.mem_singleton.mp hvalue]
    exact printable_writeBaggage h.keys fun entry hentry => (h.metadata entry hentry).printable

include ht

/-- A service with the shared library accepts the request exactly when the tenant has
no `%`. -/
theorem resolve_headersOf_iff :
    resolveHttpTenantIdentity (headersOf context named) (some t) = .ok t ↔
      '%' ∉ t := by
  rw [shared_ok_iff (printable_headersOf h htenant hnamed), ← shared_written_iff ht]
  unfold Names
  simp only [mem_sources_headersOf h htenant]
  constructor
  · rintro ⟨-, hall⟩
    exact hall _ (.inr (.inr rfl))
  · intro hbaggage
    have hmem : Source.text t ∈ sources (headersOf context named) (some t) :=
      (mem_sources_headersOf h htenant _).mpr (.inl rfl)
    refine ⟨List.ne_nil_of_mem hmem, fun source hsource => ?_⟩
    rcases hsource with rfl | ⟨value, hvalue, rfl⟩ | rfl
    · exact ht
    · rw [(hnamed value hvalue).1]
      exact ht
    · exact hbaggage

theorem catalog_headersOf (hpercent : '%' ∉ t) : CatalogService.resolve
    (CatalogService.fromHeaders (headersOf context named)) (some t) =
      .ok t := by
  rw [catalog_ok_iff (printable_headersOf h htenant hnamed)]
  have hmem : Source.text t ∈ sources (headersOf context named) (some t) :=
    (mem_sources_headersOf h htenant _).mpr (.inl rfl)
  refine ⟨List.ne_nil_of_mem hmem, fun source hsource => ?_⟩
  rcases (mem_sources_headersOf h htenant source).mp hsource with rfl | ⟨value, hvalue, rfl⟩ | rfl
  · exact ht.catalog
  · rw [(hnamed value hvalue).1]
    exact ht.catalog
  · exact catalog_written ht hpercent

theorem Relay.resolve_headersOf_iff (relay : Relay) :
    relay.resolve (headersOf context named) t = .ok t ↔ '%' ∉ t := by
  rw [← Propagation.resolve_headersOf_iff ht h htenant hnamed]
  cases relay with
  | checkout tier segment region priority sessionId variant =>
    unfold Relay.resolve
    dsimp only
    rw [ht.not_blank, if_neg Bool.false_ne_true, mapError_ok]
  | recommendation => exact mapError_ok

theorem Endpoint.resolve_headersOf {endpoint : Endpoint} (hpercent : '%' ∉ t) :
    endpoint.resolve (headersOf context named) t = .ok t := by
  have hshared := (Propagation.resolve_headersOf_iff ht h htenant hnamed).mpr hpercent
  cases endpoint with
  | inventory =>
    unfold Endpoint.resolve
    dsimp only
    rw [ht.not_blank, if_neg Bool.false_ne_true, mapError_ok]
    exact hshared
  | pricing => exact mapError_ok.mpr hshared
  | catalog => exact catalog_headersOf ht h htenant hnamed hpercent

theorem Endpoint.refuses {endpoint : Endpoint} (hrust : endpoint ≠ .catalog)
    (hpercent : '%' ∈ t) :
    endpoint.resolve (headersOf context named) t ≠ .ok t := by
  intro hok
  refine (Propagation.resolve_headersOf_iff ht h htenant hnamed).mp ?_ hpercent
  cases endpoint with
  | inventory =>
    unfold Endpoint.resolve at hok
    dsimp only at hok
    rw [ht.not_blank, if_neg Bool.false_ne_true] at hok
    exact mapError_ok.mp hok
  | pricing => exact mapError_ok.mp hok
  | catalog => exact absurd rfl hrust

end Call

/-! ## The context of the next call -/

/-- The keys that checkout sets from its own request. -/
def ownKeys : List Text := [tenantBaggageKey, sessionKey, featureVariantKey]

theorem cloneBaggage_plain {baggage : ContextBaggage}
    (h : ∀ entry ∈ baggage.entries, PlainMetadata entry.metadata) :
    (cloneBaggage baggage).Plain where
  safe := fun _ hentry => (List.mem_filter.mp hentry).2
  metadata := fun entry hentry => h entry (List.mem_filter.mp hentry).1

section Outbound

variable {library : Library} {active parent : Context} {t : Text} (h : active.Plain)
  (hparent : parent.Plain)

theorem get_extend {context : Context} {values : List (Text × Text)}
    (hlibrary : library.Documented) (h : context.baggage.Plain) {key : Text}
    (hkey : ∀ value ∈ values, value.1 ≠ key) :
    (extendBaggage library context values).baggage.get key = context.baggage.get key := by
  rw [get_extendBaggage_of_not hlibrary (.of_baggage h) hkey, h.clone]

theorem contextWithSessionId_plain (library : Library) {context : Context} (sessionId : Text)
    (h : context.baggage.Plain) :
    (contextWithSessionId library context sessionId).baggage.Plain := by
  unfold contextWithSessionId
  split
  · exact h
  · exact extendBaggage_plain (.of_baggage h)

theorem contextWithIdentity_plain (library : Library) {context : Context} (tenant sessionId : Text)
    (h : context.baggage.Plain) :
    (contextWithIdentity library context tenant sessionId).baggage.Plain :=
  extendBaggage_plain (.of_baggage h)

include h hparent

theorem Relay.outbound_plain (relay : Relay) :
    (relay.outbound library active parent t).baggage.Plain := by
  cases relay with
  | checkout tier segment region priority sessionId variant =>
    have hbusiness : (withBusinessContextFromParent library active parent t tier segment region
        priority).baggage.Plain := withBusinessContextFromParent_plain h hparent
    have hsession := contextWithSessionId_plain library sessionId hbusiness
    exact extendBaggage_plain (.of_baggage (contextWithIdentity_plain library t sessionId hsession))
  | recommendation => exact extendBaggage_plain (Context.Plain.sanitized hparent)

variable (hlibrary : library.Documented)

include hlibrary

theorem Relay.outbound_tenant (ht : IsTenant t) (relay : Relay) :
    (relay.outbound library active parent t).baggage.get tenantBaggageKey = some t := by
  cases relay with
  | checkout tier segment region priority sessionId variant =>
    have hbusiness : (withBusinessContextFromParent library active parent t tier segment region
        priority).baggage.Plain := withBusinessContextFromParent_plain h hparent
    have hsession := contextWithSessionId_plain library sessionId hbusiness
    have hidentity := contextWithIdentity_plain library t sessionId hsession
    have hvariant : ∀ value ∈ [(featureVariantKey, variant)], value.1 ≠ tenantBaggageKey := by
      intro value hvalue
      have hne : featureVariantKey ≠ tenantBaggageKey := by decide
      rw [List.mem_singleton.mp hvalue]
      exact hne
    refine (get_extend hlibrary hidentity hvariant).trans ?_
    exact get_extendBaggage_of_mem hlibrary (.of_baggage hsession) (by simp; decide)
      List.mem_cons_self ht.safe
  | recommendation =>
    exact get_extendBaggage_of_mem hlibrary (Context.Plain.sanitized hparent) (by simp)
      List.mem_cons_self ht.safe

/-- What was chosen before, and checkout does not set itself, is kept. -/
theorem Relay.outbound_keeps {key value : Text} (hkey : key ∉ ownKeys)
    (hget : (cloneBaggage parent.baggage).get key = some value) (relay : Relay) :
    (relay.outbound library active parent t).baggage.get key = some value := by
  simp only [ownKeys, List.mem_cons, List.not_mem_nil, or_false, not_or] at hkey
  obtain ⟨htenant, hsession, hvariant⟩ := hkey
  cases relay with
  | checkout tier segment region priority sessionId variant =>
    have hbusiness : (withBusinessContextFromParent library active parent t tier segment region
        priority).baggage.Plain := withBusinessContextFromParent_plain h hparent
    have hplain := contextWithSessionId_plain library sessionId hbusiness
    have hidentity := contextWithIdentity_plain library t sessionId hplain
    refine (get_extend hlibrary hidentity (by simpa using Ne.symm hvariant)).trans ?_
    refine (get_extend hlibrary hplain (by simpa using ⟨Ne.symm htenant, Ne.symm hsession⟩)).trans ?_
    unfold contextWithSessionId
    split
    · exact get_withBusinessContextFromParent hlibrary h hparent (Ne.symm htenant) hget
    · rw [get_extend hlibrary hbusiness (by simpa using Ne.symm hsession)]
      exact get_withBusinessContextFromParent hlibrary h hparent (Ne.symm htenant) hget
  | recommendation =>
    show (extendBaggage library (catalogOutboundContext active parent)
      [(tenantBaggageKey, t)]).baggage.get key = some value
    have hplain : (catalogOutboundContext active parent).baggage.Plain := hparent
    rw [get_extend hlibrary hplain (by simpa using Ne.symm htenant)]
    exact hget

end Outbound

/-! ## The chain -/

section Chain

variable {library : Library} (hlibrary : library.Documented) {context : Context} {t : Text}
  {named : List Text} (h : context.baggage.Plain)
  (htenant : context.baggage.get tenantBaggageKey = some t)

include hlibrary h htenant

/-- What a service reads from the headers of a call is plain, -/
theorem extractContext_plain (span : SpanContext) :
    (extractContext library span (headersOf context named)).Plain := by
  refine .of_baggage (cloneBaggage_plain ?_)
  rw [headersOf_eq h htenant]
  exact hlibrary.metadata context.baggage h

/-- and has the values that no escape and no blank at an end disturbs. -/
theorem get_extractContext (span : SpanContext) {key value : Text} (hpercent : '%' ∉ value)
    (htrim : trim value = value) (hget : context.baggage.get key = some value) :
    (cloneBaggage (extractContext library span
      (headersOf context named)).baggage).get key = some value := by
  obtain ⟨entry, hentry, rfl, rfl⟩ := ContextBaggage.mem_of_get hget
  have hread := hlibrary.reads context.baggage h entry hentry hpercent htrim
  have hsafe := h.safe entry hentry
  have hextracted : (extractContext library span
      (headersOf context named)).baggage =
        cloneBaggage (library.extract [writeBaggage context.baggage]) := by
    rw [headersOf_eq h htenant]
    rfl
  rw [hextracted, (cloneBaggage_plain (hlibrary.metadata context.baggage h)).clone]
  obtain ⟨read, hmem, hkey, hvalue⟩ := ContextBaggage.mem_of_get hread
  rw [← hkey, ← hvalue] at hsafe ⊢
  exact ContextBaggage.get_of_mem (List.mem_filter.mpr ⟨hmem, hsafe⟩)

end Chain

/-- The headers of the next call name the tenant once more, or not. -/
theorem Relay.headers_ok {context : Context} {t : Text} {relay : Relay}
    (hheader : relay = .recommendation → Printable t) :
    ∃ named : List Text, relay.headers context t = .ok (headersOf context named) ∧
      ∀ value ∈ named, value = t ∧ Printable value := by
  cases relay with
  | checkout tier segment region priority sessionId variant =>
    exact ⟨[], rfl, fun value hvalue => absurd hvalue List.not_mem_nil⟩
  | recommendation =>
    have hprintable := hheader rfl
    have hall : t.all isHeaderChar = true := by
      rw [List.all_eq_true]
      intro c hc
      unfold isHeaderChar
      rcases hprintable c hc with hrange | rfl
      · simp only [Bool.or_eq_true, decide_eq_true_eq]
        omega
      · decide
    refine ⟨[t], if_pos hall, fun value hvalue => ?_⟩
    rw [List.mem_singleton.mp hvalue]
    exact ⟨rfl, hprintable⟩

/-- What a service on the way does: it acts for the tenant, and keeps what was chosen. -/
def Keeps (context : Context) (t : Text) (a : Acted) : Prop :=
  a.tenant = t ∧ ∀ key value, key ∉ ownKeys → '%' ∉ value → trim value = value →
    context.baggage.get key = some value → a.context.baggage.get key = some value

theorem Keeps.trans {context : Context} {t : Text} {a b : Acted} (hab : Keeps context t a)
    (hb : Keeps a.context t b) : Keeps context t b :=
  ⟨hb.1, fun key value hkey hpercent htrim hget =>
    hb.2 key value hkey hpercent htrim (hab.2 key value hkey hpercent htrim hget)⟩

theorem callChain_cons {library : Library} {endpoint : Endpoint} {hop : Hop} {hops : List Hop}
    {headers next : TenantHeaders} {t : Text} {context : Context}
    (hresolve : hop.relay.resolve headers t = .ok t)
    (hcontext : hop.relay.outbound library hop.active
      (extractContext library hop.span headers) t = context)
    (hnext : hop.relay.headers context t = .ok next) {acted : List Acted} {last : Text}
    (hrest : callChain library endpoint hops next t = .ok (acted, last)) :
    callChain library endpoint (hop :: hops) headers t = .ok (⟨t, context⟩ :: acted, last) := by
  unfold callChain
  rw [hresolve]
  dsimp only [bind, Except.bind]
  rw [hcontext, hnext]
  dsimp only
  rw [hrest]
  rfl

/-- Without a `%` in the tenant the request comes to the end of the chain. -/
theorem callChain_accepts {library : Library} (hlibrary : library.Documented)
    {endpoint : Endpoint} {hops : List Hop} {context : Context} {t : Text} {named : List Text}
    (ht : IsTenant t) (hpercent : '%' ∉ t) (hactive : ∀ hop ∈ hops, hop.active.Plain)
    (hheader : ∀ hop ∈ hops, hop.relay = .recommendation → Printable t)
    (h : context.baggage.Plain) (htenant : context.baggage.get tenantBaggageKey = some t)
    (hnamed : ∀ value ∈ named, value = t ∧ Printable value) :
    ∃ acted, callChain library endpoint hops (headersOf context named) t = .ok (acted, t) ∧
      acted.length = hops.length ∧ ∀ a ∈ acted, Keeps context t a := by
  induction hops generalizing context named with
  | nil =>
    refine ⟨[], ?_, rfl, fun a ha => absurd ha List.not_mem_nil⟩
    unfold callChain
    rw [Endpoint.resolve_headersOf ht h htenant hnamed hpercent]
    rfl
  | cons hop hops ih =>
    have hresolve := (Relay.resolve_headersOf_iff ht h htenant hnamed hop.relay).mpr hpercent
    have hparent : (extractContext library hop.span (headersOf context named)).Plain :=
      extractContext_plain hlibrary h htenant hop.span
    have hown := hactive hop List.mem_cons_self
    obtain ⟨next, hnext⟩ : ∃ next, hop.relay.outbound library hop.active
        (extractContext library hop.span (headersOf context named)) t = next := ⟨_, rfl⟩
    have hplain : next.baggage.Plain := hnext ▸ Relay.outbound_plain hown hparent hop.relay
    have hnextTenant : next.baggage.get tenantBaggageKey = some t :=
      hnext ▸ Relay.outbound_tenant hown hparent hlibrary ht hop.relay
    have hkeep : Keeps context t ⟨t, next⟩ := by
      refine ⟨rfl, fun key value hkey hvalue htrim hget => ?_⟩
      rw [← hnext]
      exact Relay.outbound_keeps hown hparent hlibrary hkey
        (get_extractContext hlibrary h htenant hop.span hvalue htrim hget) hop.relay
    obtain ⟨again, hheaders, hagain⟩ := Relay.headers_ok (hheader hop List.mem_cons_self)
    obtain ⟨acted, hrest, hlength, hkeeps⟩ := ih
      (fun e he => hactive e (List.mem_cons_of_mem hop he))
      (fun e he => hheader e (List.mem_cons_of_mem hop he)) hplain hnextTenant hagain
    refine ⟨⟨t, next⟩ :: acted, callChain_cons hresolve hnext hheaders hrest,
      congrArg (· + 1) hlength, fun a ha => ?_⟩
    rcases List.mem_cons.mp ha with rfl | ha
    · exact hkeep
    · exact hkeep.trans (hkeeps a ha)

/-- With a `%` in it, the first service with the shared library refuses the request. -/
theorem callChain_refuses {library : Library} {endpoint : Endpoint} {hops : List Hop}
    {context : Context} {t : Text} {named : List Text} (ht : IsTenant t) (hpercent : '%' ∈ t)
    (hrust : hops ≠ [] ∨ endpoint ≠ .catalog) (h : context.baggage.Plain)
    (htenant : context.baggage.get tenantBaggageKey = some t)
    (hnamed : ∀ value ∈ named, value = t ∧ Printable value) :
    ∃ e, callChain library endpoint hops (headersOf context named) t = .error e := by
  cases hchain : callChain library endpoint hops (headersOf context named) t with
  | error e => exact ⟨e, rfl⟩
  | ok result =>
    exfalso
    cases hops with
    | nil =>
      obtain ⟨last, hlast, -⟩ := bind_ok hchain
      obtain rfl := Endpoint.resolve_only ht hlast
      exact Endpoint.refuses ht h htenant hnamed (hrust.resolve_left fun hne => hne rfl) hpercent
        hlast
    | cons hop hops =>
      obtain ⟨first, hfirst, -⟩ := bind_ok hchain
      obtain rfl := Relay.resolve_only ht hfirst
      exact (Relay.resolve_headersOf_iff ht h htenant hnamed hop.relay).mp hfirst hpercent

end CommercePlayground.Propagation
