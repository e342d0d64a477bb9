/-
CommercePlayground.Propagation.ResolutionTheorems — the answer of
`resolve_http_tenant_identity` from its candidates.

A candidate is a text, or nothing where the escapes of a baggage value are broken. The
loops stop at the first candidate that is no tenant name and compare the names only
when there are no more candidates, so that an invalid candidate wins over a conflict
wherever it stands, and the answer depends on which candidates there are and on
nothing else.
-/
import CommercePlayground.Propagation.TenantTheorems

namespace CommercePlayground.Propagation

open Lib

/-! ## Candidates -/

/-- The text of a source once its escapes are undone. -/
def Source.decoded : Source → Option Text
  | .text value => some value
  | .baggage value => (percentDecode (utf8 value)).bind fromUtf8

/-- The request tenant, the values of the headers and the decoded baggage values. -/
def candidates (headers : TenantHeaders) (requestTenant : Option Text) : List (Option Text) :=
  (sources headers requestTenant).map Source.decoded

/-- A candidate decodes, and its text normalizes to a tenant. -/
def NormalizesTo (candidate : Option Text) (t : Text) : Prop :=
  ∃ s, candidate = some s ∧ Shared.normalizeTenantCandidate s = .ok t

theorem normalizeTenantCandidate_error {s : Text} {e : Shared.TenantIdentityError}
    (h : Shared.normalizeTenantCandidate s = .error e) : e = .invalid := by
  unfold Shared.normalizeTenantCandidate at h
  dsimp only at h
  split at h
  · cases h
    rfl
  · cases h

theorem Source.shared_ok {source : Source} {t : Text} :
    source.shared = .ok t ↔ NormalizesTo source.decoded t := by
  unfold NormalizesTo
  cases source with
  | text value => simp [Source.shared, Source.decoded]
  | baggage value =>
    rw [baggage_shared]
    simp only [Source.decoded, Option.bind_eq_some_iff]
    constructor
    · rintro ⟨bytes, s, hbytes, hs, hnormal⟩
      exact ⟨s, ⟨bytes, hbytes, hs⟩, hnormal⟩
    · rintro ⟨s, ⟨bytes, hbytes, hs⟩, hnormal⟩
      exact ⟨bytes, s, hbytes, hs, hnormal⟩

/-- A source that names no tenant is invalid. -/
theorem Source.shared_error {source : Source} {e : Shared.TenantIdentityError}
    (h : source.shared = .error e) : e = .invalid := by
  cases source with
  | text value => exact normalizeTenantCandidate_error h
  | baggage value =>
    simp only [Source.shared, Shared.decodeBaggageValue] at h
    cases hdecoded : (percentDecode (utf8 value)).bind fromUtf8 with
    | none =>
      rw [hdecoded] at h
      cases h
      rfl
    | some s =>
      rw [hdecoded] at h
      exact normalizeTenantCandidate_error h

/-! ## The loops -/

/-- Whichever invalid source comes first, the answer is the same. -/
theorem mapM_shared_of_invalid {found : List Source}
    (h : ∃ source ∈ found, source.shared = .error .invalid) :
    found.mapM Source.shared = .error .invalid := by
  induction found with
  | nil =>
    obtain ⟨source, hmem, -⟩ := h
    exact absurd hmem List.not_mem_nil
  | cons first found ih =>
    rw [List.mapM_cons]
    cases hfirst : first.shared with
    | error e =>
      rw [Source.shared_error hfirst]
      rfl
    | ok t =>
      have hrest : ∃ source ∈ found, source.shared = .error .invalid := by
        obtain ⟨source, hmem, hinvalid⟩ := h
        rcases List.mem_cons.mp hmem with rfl | hmem
        · rw [hfirst] at hinvalid
          cases hinvalid
        · exact ⟨source, hmem, hinvalid⟩
      rw [ih hrest]
      rfl

theorem mapM_shared_of_valid {found : List Source}
    (h : ∀ source ∈ found, ∃ t, source.shared = .ok t) :
    ∃ ys, found.mapM Source.shared = .ok ys := by
  induction found with
  | nil => exact ⟨[], rfl⟩
  | cons first found ih =>
    obtain ⟨t, hfirst⟩ := h first List.mem_cons_self
    obtain ⟨ys, hrest⟩ := ih fun source hmem => h source (List.mem_cons_of_mem first hmem)
    rw [List.mapM_cons, hfirst, hrest]
    exact ⟨t :: ys, rfl⟩

theorem agreedTenant_cases (ys : List Text) :
    (∃ t, Shared.agreedTenant ys = .ok t) ∨ (ys = [] ∧ Shared.agreedTenant ys = .error .missing) ∨
      (ys ≠ [] ∧ Shared.agreedTenant ys = .error .conflicting) := by
  cases ys with
  | nil => exact .inr (.inl ⟨rfl, rfl⟩)
  | cons y ys =>
    dsimp only [Shared.agreedTenant]
    split
    · exact .inr (.inr ⟨List.cons_ne_nil y ys, rfl⟩)
    · exact .inl ⟨y, rfl⟩

/-! ## The answer -/

section Answer

variable {headers : TenantHeaders} (h : headers.Printable) (requestTenant : Option Text)

include h

theorem resolve_ok_iff (t : Text) :
    Shared.resolveHttpTenantIdentity headers requestTenant = .ok t ↔
      candidates headers requestTenant ≠ [] ∧
        ∀ candidate ∈ candidates headers requestTenant, NormalizesTo candidate t := by
  rw [shared_ok_iff h]
  unfold Names candidates
  simp only [ne_eq, List.map_eq_nil_iff, List.mem_map, forall_exists_index, and_imp,
    forall_apply_eq_imp_iff₂, Source.shared_ok]

theorem resolve_missing (hnone : candidates headers requestTenant = []) :
    Shared.resolveHttpTenantIdentity headers requestTenant = .error .missing := by
  rw [resolveHttpTenantIdentity_eq h, List.map_eq_nil_iff.mp hnone]
  rfl

theorem resolve_invalid
    (hinvalid : ∃ candidate ∈ candidates headers requestTenant, ∀ t, ¬ NormalizesTo candidate t) :
    Shared.resolveHttpTenantIdentity headers requestTenant = .error .invalid := by
  obtain ⟨candidate, hmem, hno⟩ := hinvalid
  obtain ⟨source, hsource, rfl⟩ := List.mem_map.mp hmem
  rw [resolveHttpTenantIdentity_eq h, mapM_shared_of_invalid]
  · rfl
  · refine ⟨source, hsource, ?_⟩
    cases hshared : source.shared with
    | ok t => exact absurd (Source.shared_ok.mp hshared) (hno t)
    | error e => rw [Source.shared_error hshared]

theorem resolve_conflicting (hne : candidates headers requestTenant ≠ [])
    (hvalid : ∀ candidate ∈ candidates headers requestTenant, ∃ t, NormalizesTo candidate t)
    (hconflict : ¬ ∃ t, ∀ candidate ∈ candidates headers requestTenant, NormalizesTo candidate t) :
    Shared.resolveHttpTenantIdentity headers requestTenant = .error .conflicting := by
  have hsources : ∀ source ∈ sources headers requestTenant, ∃ t, source.shared = .ok t := by
    intro source hsource
    obtain ⟨t, ht⟩ := hvalid _ (List.mem_map_of_mem hsource)
    exact ⟨t, Source.shared_ok.mpr ht⟩
  obtain ⟨ys, hys⟩ := mapM_shared_of_valid hsources
  have hresolve : Shared.resolveHttpTenantIdentity headers requestTenant =
      Shared.agreedTenant ys := by
    rw [resolveHttpTenantIdentity_eq h, hys]
    rfl
  rcases agreedTenant_cases ys with ⟨t, ht⟩ | ⟨hnil, -⟩ | ⟨-, hconflicting⟩
  · rw [← hresolve] at ht
    exact absurd ⟨t, ((resolve_ok_iff h requestTenant t).mp ht).2⟩ hconflict
  · have hlength := (names_of_mapM hys).1
    rw [hnil] at hlength
    refine absurd ?_ hne
    exact List.map_eq_nil_iff.mpr (List.eq_nil_of_length_eq_zero hlength.symm)
  · rw [hresolve, hconflicting]

end Answer

/-- The candidates alone decide, in whatever order and however often they come. -/
theorem resolve_congr {headers headers' : TenantHeaders} (h : headers.Printable)
    (h' : headers'.Printable) {requestTenant requestTenant' : Option Text}
    (hsame : ∀ candidate, candidate ∈ candidates headers' requestTenant' ↔
      candidate ∈ candidates headers requestTenant) :
    Shared.resolveHttpTenantIdentity headers' requestTenant' =
      Shared.resolveHttpTenantIdentity headers requestTenant := by
  have hnil : candidates headers' requestTenant' = [] ↔
      candidates headers requestTenant = [] := by
    simp only [List.eq_nil_iff_forall_not_mem, hsame]
  by_cases hnone : candidates headers requestTenant = []
  · rw [resolve_missing h _ hnone, resolve_missing h' _ (hnil.mpr hnone)]
  by_cases hinvalid : ∃ candidate ∈ candidates headers requestTenant,
      ∀ t, ¬ NormalizesTo candidate t
  · rw [resolve_invalid h _ hinvalid, resolve_invalid h']
    simpa only [hsame] using hinvalid
  by_cases hagree : ∃ t, ∀ candidate ∈ candidates headers requestTenant, NormalizesTo candidate t
  · obtain ⟨t, ht⟩ := hagree
    rw [(resolve_ok_iff h _ t).mpr ⟨hnone, ht⟩, resolve_ok_iff h']
    simp only [ne_eq, hnil, hsame]
    exact ⟨hnone, ht⟩
  · have hvalid : ∀ candidate ∈ candidates headers requestTenant,
        ∃ t, NormalizesTo candidate t := by
      intro candidate hmem
      by_contra hno
      exact hinvalid ⟨candidate, hmem, fun t ht => hno ⟨t, ht⟩⟩
    rw [resolve_conflicting h _ hnone hvalid hagree, resolve_conflicting h']
    · exact fun hempty => hnone (hnil.mp hempty)
    · simpa only [hsame] using hvalid
    · simpa only [hsame] using hagree

/-- Who a request is for, from its candidates: no answer without one, none that is
invalid beside it, none that differs, in whatever order they come; and a request over
gRPC with the same values gets the same answer. -/
theorem tenant_resolution_exact {headers : TenantHeaders} (h : headers.Printable)
    (requestTenant : Option Text) :
    (∀ t, Shared.resolveHttpTenantIdentity headers requestTenant = .ok t ↔
      candidates headers requestTenant ≠ [] ∧
        ∀ candidate ∈ candidates headers requestTenant, NormalizesTo candidate t) ∧
    (candidates headers requestTenant = [] →
      Shared.resolveHttpTenantIdentity headers requestTenant = .error .missing) ∧
    ((∃ candidate ∈ candidates headers requestTenant, ∀ t, ¬ NormalizesTo candidate t) →
      Shared.resolveHttpTenantIdentity headers requestTenant = .error .invalid) ∧
    (candidates headers requestTenant ≠ [] →
      (∀ candidate ∈ candidates headers requestTenant, ∃ t, NormalizesTo candidate t) →
      (¬ ∃ t, ∀ candidate ∈ candidates headers requestTenant, NormalizesTo candidate t) →
      Shared.resolveHttpTenantIdentity headers requestTenant = .error .conflicting) ∧
    (∀ (headers' : TenantHeaders) (requestTenant' : Option Text), headers'.Printable →
      (∀ candidate, candidate ∈ candidates headers' requestTenant' ↔
        candidate ∈ candidates headers requestTenant) →
      Shared.resolveHttpTenantIdentity headers' requestTenant' =
        Shared.resolveHttpTenantIdentity headers requestTenant) ∧
    Shared.resolveGrpcTenantIdentity headers requestTenant =
      Shared.resolveHttpTenantIdentity headers requestTenant :=
  ⟨resolve_ok_iff h requestTenant, resolve_missing h requestTenant,
    resolve_invalid h requestTenant, resolve_conflicting h requestTenant,
    fun _ _ h' hsame => resolve_congr h h' hsame, rfl⟩

theorem tenant_resolution_exact_sample :
    Shared.resolveHttpTenantIdentity ⟨["acme".toList], ["nova".toList],
      ["tenant.id=%zz".toList]⟩ none = .error .invalid := by
  refine (tenant_resolution_exact ⟨?_, ?_, ?_⟩ none).2.2.1 ⟨none, by decide, ?_⟩
  · intro value hvalue
    rw [List.mem_singleton.mp hvalue]
    exact printable_of_all (by decide)
  · intro value hvalue
    rw [List.mem_singleton.mp hvalue]
    exact printable_of_all (by decide)
  · intro value hvalue
    rw [List.mem_singleton.mp hvalue]
    exact printable_of_all (by decide)
  · rintro t ⟨s, hs, -⟩
    cases hs

end CommercePlayground.Propagation
