/-
CommercePlayground.Storefront.Identity — who the storefront acts for.

`StoreContext` holds what a request brought along: its context, the tenant that its headers
name or the reason why they name none, and its session. A field of the store resolves the
identity of its arguments against it and calls on with a context that carries the identity.
-/
import CommercePlayground.Boundary.Order
import CommercePlayground.Propagation.Business

namespace CommercePlayground.Storefront

open Lib Propagation Propagation.Shared Boundary

/-! ## The request -/

/-- `StoreContext`, without its connections. -/
structure StoreContext where
  propagation : Context
  inboundTenantId : Option Text
  inboundTenantError : Option String
  inboundSessionId : Option Text

/-- `baggage_or`. -/
def baggageOr (context : Context) (key default : Text) : Text :=
  (context.baggage.get key).getD default

/-- The four fields that the storefront always sends, each as the context has it. -/
def businessFields (context : Context) : List (Text × Text) :=
  [(userTierKey, baggageOr context userTierKey "standard".toList),
    (customerSegmentKey, baggageOr context customerSegmentKey "standard".toList),
    (regionKey, baggageOr context regionKey "us-east-1".toList),
    (requestPriorityKey, baggageOr context requestPriorityKey "normal".toList)]

/-- `with_request_context`; `active` is the context of the current span. -/
def withRequestContext (library : Library) (active inbound : Context) : StoreContext :=
  let inbound := withSafeBaggage inbound
  let base := if active.span.isValid then active else inbound
  { propagation := extendBaggage library (withSafeParentBaggage library base inbound)
      (businessFields inbound)
    inboundTenantId := (inbound.baggage.get tenantBaggageKey).filter fun value => !value.isEmpty
    inboundTenantError := none
    inboundSessionId := (inbound.baggage.get sessionKey).filter fun value => !value.isEmpty }

/-- `for_request`. -/
def forRequest (library : Library) (active : Context) (span : SpanContext)
    (headers : TenantHeaders) : StoreContext :=
  let context := withRequestContext library active (extractContext library span headers)
  match resolveHttpTenantIdentity headers none with
  | .ok tenant => { context with inboundTenantId := some tenant, inboundTenantError := none }
  | .error .missing => { context with inboundTenantId := none, inboundTenantError := none }
  | .error error =>
    { context with inboundTenantId := none, inboundTenantError := some error.message }

/-! ## Its identity -/

/-- `validate_identity_component`. -/
def validateIdentityComponent (value : Text) (name : String) : Except String Unit :=
  if trimIsEmpty value || decide (128 < (utf8 value).length) || value.any isControl then
    .error (name ++ " is invalid")
  else .ok ()

/-- An argument, trimmed; an empty one counts as missing. -/
def argument (value : Option Text) : Option Text :=
  (value.map trim).filter fun value => !value.isEmpty

/-- `resolve_tenant_id`. -/
def StoreContext.resolveTenantId (store : StoreContext) (requested : Option Text) :
    Except String Text :=
  match store.inboundTenantError with
  | some error => .error error
  | none =>
    let requested := argument requested
    let propagated := store.inboundTenantId
    if requested.isSome && propagated.isSome && decide (requested ≠ propagated) then
      .error "tenant identity conflicts with propagated request identity"
    else
      match requested.or propagated with
      | none => .error "tenant_id is required in the request or tenant.id baggage"
      | some tenant => do
        validateIdentityComponent tenant "tenant_id"
        return tenant

/-- `resolve_session_id`. -/
def StoreContext.resolveSessionId (store : StoreContext) (requested : Option Text) :
    Except String (Option Text) := do
  let requested := argument requested
  requested.forM fun value => validateIdentityComponent value "session_id"
  let propagated := store.inboundSessionId
  if requested.isSome && propagated.isSome && decide (requested ≠ propagated) then
    .error "session identity conflicts with propagated request identity"
  else return requested.or propagated

/-- `CommerceIdentity`. -/
structure CommerceIdentity where
  tenantId : Text
  customerId : Text
  sessionId : Option Text
  deriving DecidableEq

/-- `resolve_identity`. -/
def StoreContext.resolveIdentity (store : StoreContext) (uuid : Uuid)
    (tenantId customerId sessionId : Option Text) (requireSession : Bool) :
    Except String CommerceIdentity := do
  let tenantId ← store.resolveTenantId tenantId
  match argument customerId with
  | none => .error "customer_id is required"
  | some customerId => do
    validateIdentityComponent customerId "customer_id"
    let sessionId ← store.resolveSessionId sessionId
    let sessionId :=
      if requireSession then some (sessionId.getD ("session-".toList ++ uuid.text))
      else sessionId
    sessionId.forM fun value => validateIdentityComponent value "session_id"
    return ⟨tenantId, customerId, sessionId⟩

/-! ## What it calls on with -/

/-- `context_for_identity`. -/
def StoreContext.contextForIdentity (library : Library) (store : StoreContext)
    (identity : CommerceIdentity) : Context :=
  extendBaggage library store.propagation ((tenantBaggageKey, identity.tenantId) ::
    (identity.sessionId.map fun value => (sessionKey, value)).toList)

/-- The end of both functions below: the context over that of the current span. -/
def outbound (library : Library) (active propagation : Context) (tenantId : Text) : Context :=
  if !active.span.isValid then propagation
  else
    withBusinessContextFromParent library active propagation tenantId
      (baggageOr propagation userTierKey "standard".toList)
      (baggageOr propagation customerSegmentKey "standard".toList)
      (baggageOr propagation regionKey "us-east-1".toList)
      (baggageOr propagation requestPriorityKey "normal".toList)

/-- `outbound_context_for_identity`. -/
def StoreContext.outboundContextForIdentity (library : Library) (store : StoreContext)
    (active : Context) (identity : CommerceIdentity) : Context :=
  outbound library active (store.contextForIdentity library identity) identity.tenantId

/-- `outbound_context_for_tenant`. -/
def StoreContext.outboundContextForTenant (library : Library) (store : StoreContext)
    (active : Context) (tenantId : Text) : Except String Context := do
  let tenantId ← store.resolveTenantId (some tenantId)
  return outbound library active
    (extendBaggage library store.propagation [(tenantBaggageKey, tenantId)]) tenantId

end CommercePlayground.Storefront
