/-
CommercePlayground.Propagation.Tenant — who a request is for.

`resolve_http_tenant_identity` of the shared library and `CatalogRequestIdentity` of
the catalog. Both collect the tenant from the `x-tenant-id` and `tenant-id` headers,
from baggage and from the request itself, and insist that every source agrees.
-/
import CommercePlayground.Lib.Encoding

namespace CommercePlayground.Propagation

open Lib

/-- The headers that carry a tenant, each with all its values. -/
structure TenantHeaders where
  xTenantId : List Text
  tenantId : List Text
  baggage : List Text

def tenantBaggageKey : Text := "tenant.id".toList

/-! ## The shared library -/

namespace Shared

inductive TenantIdentityError where
  | missing
  | invalid
  | conflicting
  deriving DecidableEq, Repr

def TenantIdentityError.message : TenantIdentityError → String
  | .missing => "tenant identity is required"
  | .invalid => "tenant identity is invalid"
  | .conflicting => "tenant identity sources conflict"

def maxBusinessBaggageValueLength : Nat := 128

/-- `HeaderValue::to_str`, which takes visible ASCII, spaces and tabs. -/
def toStr (value : Text) : Except TenantIdentityError Text :=
  if value.all fun c => decide (0x20 ≤ c.toNat ∧ c.toNat < 0x7f) || decide (c = '\t') then
    .ok value
  else .error .invalid

/-- `normalize_tenant_candidate`. -/
def normalizeTenantCandidate (value : Text) : Except TenantIdentityError Text :=
  let value := trim value
  if value.isEmpty || decide (maxBusinessBaggageValueLength < (utf8 value).length) ||
      value.any isControl then
    .error .invalid
  else .ok value

/-- `decode_baggage_value`. -/
def decodeBaggageValue (value : Text) : Except TenantIdentityError Text :=
  match (percentDecode (utf8 value)).bind fromUtf8 with
  | some decoded => .ok decoded
  | none => .error .invalid

/-- One member of a baggage header in `resolve_tenant_candidates`. -/
def memberCandidate (member : Text) : Except TenantIdentityError (Option Text) :=
  match splitOnce '=' member with
  | none => .ok none
  | some (key, rawValue) =>
    if trim key ≠ tenantBaggageKey then .ok none
    else do
      let value ← decodeBaggageValue (trim ((rawValue.splitOn ';').headD []))
      let candidate ← normalizeTenantCandidate value
      return some candidate

/-- The end of `resolve_tenant_candidates`. -/
def agreedTenant : List Text → Except TenantIdentityError Text
  | [] => .error .missing
  | first :: rest =>
    if (first :: rest).any fun candidate => decide (candidate ≠ first) then .error .conflicting
    else .ok first

/-- `resolve_tenant_candidates`. -/
def resolveTenantCandidates (requestTenant : Option Text) (explicit baggage : List Text) :
    Except TenantIdentityError Text := do
  let requested ← requestTenant.toList.mapM normalizeTenantCandidate
  let headers ← explicit.mapM normalizeTenantCandidate
  let members ← (baggage.flatMap fun value => value.splitOn ',').mapM memberCandidate
  agreedTenant (requested ++ headers ++ members.filterMap id)

/-- `resolve_http_tenant_identity`. -/
def resolveHttpTenantIdentity (headers : TenantHeaders) (requestTenant : Option Text) :
    Except TenantIdentityError Text := do
  let explicit ← (headers.xTenantId ++ headers.tenantId).mapM toStr
  let baggage ← headers.baggage.mapM toStr
  resolveTenantCandidates requestTenant explicit baggage

/-- `resolve_grpc_tenant_identity`. -/
def resolveGrpcTenantIdentity (metadata : TenantHeaders) (requestTenant : Option Text) :
    Except TenantIdentityError Text := do
  let explicit ← (metadata.xTenantId ++ metadata.tenantId).mapM toStr
  let baggage ← metadata.baggage.mapM toStr
  resolveTenantCandidates requestTenant explicit baggage

end Shared

/-! ## The catalog -/

namespace CatalogService

structure CatalogRequestIdentity where
  tenantId : Option Text
  error : Option String
  deriving DecidableEq

/-- `Character.isISOControl`, of a unit. -/
def isISOControl (unit : Nat) : Bool :=
  decide (unit ≤ 0x1f) || decide (0x7f ≤ unit ∧ unit ≤ 0x9f)

/-- `String.split` on one character: the empty strings at the end are left out. -/
def javaSplit (c : Char) (s : Text) : List Text :=
  if s.contains c then ((s.splitOn c).reverse.dropWhile List.isEmpty).reverse else [s]

/-- `normalize`. -/
def normalize (value : Text) : Except String Text :=
  let normalized := javaTrim value
  if normalized.isEmpty || decide (128 < (utf16 normalized).length) ||
      (utf16 normalized).any isISOControl then
    .error "tenant identity is invalid"
  else .ok normalized

/-- `decodeBaggageValue`. -/
def decodeBaggageValue (value : Text) : Except String Text :=
  match percentDecode (utf8 value) with
  | some decoded => .ok (replacedUtf8 decoded)
  | none => .error "tenant identity is invalid"

/-- One member of a baggage header in `fromHeaders`. -/
def memberCandidate (member : Text) : Except String (Option Text) :=
  match splitOnce '=' member with
  | none => .ok none
  | some (key, rawValue) =>
    if javaTrim key ≠ tenantBaggageKey then .ok none
    else do
      -- `split(";", 2)[0]`
      let value ← decodeBaggageValue (javaTrim (((splitOnce ';' rawValue).map Prod.fst).getD rawValue))
      let candidate ← normalize value
      return some candidate

/-- `fromCandidates`. -/
def fromCandidates : List Text → CatalogRequestIdentity
  | [] => ⟨none, none⟩
  | first :: rest =>
    if (first :: rest).any fun candidate => decide (first ≠ candidate) then
      ⟨none, some "tenant identity sources conflict"⟩
    else ⟨some first, none⟩

/-- `fromHeaders`; the exception it catches becomes the error of the identity. -/
def fromHeaders (headers : TenantHeaders) : CatalogRequestIdentity :=
  let candidates : Except String (List Text) := do
    let explicit ← (headers.xTenantId ++ headers.tenantId).mapM normalize
    let members ← (headers.baggage.flatMap (javaSplit ',')).mapM memberCandidate
    return explicit ++ members.filterMap id
  match candidates with
  | .ok candidates => fromCandidates candidates
  | .error message => ⟨none, some message⟩

/-- `tenantIdOrThrow`. -/
def CatalogRequestIdentity.tenantIdOrThrow (identity : CatalogRequestIdentity) :
    Except String Text :=
  match identity.error, identity.tenantId with
  | some message, _ => .error message
  | none, none => .error "tenant identity is required"
  | none, some tenant => .ok tenant

/-- `resolve` for a request whose identity the interceptor has stored, without an
authenticated tenant. -/
def resolve (inbound : CatalogRequestIdentity) (requestedTenant : Option Text) :
    Except String Text :=
  match inbound.error with
  | some message => .error message
  | none => do
    let requested ← requestedTenant.toList.mapM normalize
    (fromCandidates (inbound.tenantId.toList ++ requested)).tenantIdOrThrow

end CatalogService

end CommercePlayground.Propagation
