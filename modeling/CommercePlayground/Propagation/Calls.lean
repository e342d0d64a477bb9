/-
CommercePlayground.Propagation.Calls — one call after the other.

A request goes from service to service. Checkout and recommendation are in the middle: each
resolves the tenant it acts for from the headers and from the request it got, builds the
context it calls on with, and names the tenant in the request it sends. Inventory, pricing and
the catalog are at the end of a chain. `callChain` is such a chain of any length.
-/
import CommercePlayground.Propagation.Business

namespace CommercePlayground.Propagation

open Lib Shared

/-! ## In the middle of a chain -/

/-- A service that calls on, with what it puts into the baggage by itself: the fields of the
checkout request, its session and the variant of the feature flag. -/
inductive Relay where
  | checkout (tier segment region priority sessionId variant : Text)
  | recommendation
  deriving DecidableEq

/-- `context_with_session_id`. -/
def contextWithSessionId (library : Library) (context : Context) (sessionId : Text) : Context :=
  if trimIsEmpty sessionId then context
  else extendBaggage library context [(sessionKey, sessionId)]

/-- `context_with_identity`. -/
def contextWithIdentity (library : Library) (context : Context) (tenant sessionId : Text) :
    Context :=
  extendBaggage library context [(tenantBaggageKey, tenant), (sessionKey, sessionId)]

/-- `context_with_checkout_variant`. -/
def contextWithCheckoutVariant (library : Library) (context : Context) (variant : Text) :
    Context :=
  extendBaggage library context [(featureVariantKey, variant)]

/-- `catalog_outbound_context` of recommendation. -/
def catalogOutboundContext (active inbound : Context) : Context :=
  { active with baggage := (withSafeBaggage inbound).baggage }

/-- The context a service calls on with: `active` is that of its own span, `parent` the one it
read from the headers. -/
def Relay.outbound (library : Library) (active parent : Context) (tenant : Text) :
    Relay → Context
  | .checkout tier segment region priority sessionId variant =>
    let context := withBusinessContextFromParent library active parent tenant tier segment
      region priority
    let context := contextWithSessionId library context sessionId
    contextWithCheckoutVariant library (contextWithIdentity library context tenant sessionId)
      variant
  | .recommendation =>
    extendBaggage library (catalogOutboundContext active parent) [(tenantBaggageKey, tenant)]

/-- The headers of a call that carry a tenant: `x-tenant-id` with these values, and what
`inject_context_headers` writes. -/
def headersOf (context : Context) (named : List Text) : TenantHeaders :=
  ⟨named, [], (injectContextHeaders context).baggage⟩

/-- The headers of the next call: `fetch` of recommendation names the tenant once more. -/
def Relay.headers (context : Context) (tenant : Text) : Relay → Except String TenantHeaders
  | .checkout .. => .ok (headersOf context [])
  | .recommendation =>
    if tenant.all isHeaderChar then .ok (headersOf context [tenant])
    else .error "tenant identity cannot be forwarded"

/-- `resolve_http_tenant_id` of checkout, and `recommend`: the tenant it acts for. -/
def Relay.resolve (headers : TenantHeaders) (requested : Text) : Relay → Except String Text
  | .checkout .. =>
    (resolveHttpTenantIdentity headers
      (if trimIsEmpty requested then none else some requested)).mapError
        TenantIdentityError.message
  | .recommendation =>
    (resolveHttpTenantIdentity headers (some requested)).mapError TenantIdentityError.message

/-! ## At its end -/

inductive Endpoint where
  | inventory | pricing | catalog
  deriving DecidableEq

/-- `reserve_get`, `quote` of pricing and `resolve` of the catalog. -/
def Endpoint.resolve (headers : TenantHeaders) (requested : Text) : Endpoint → Except String Text
  | .inventory =>
    (resolveHttpTenantIdentity headers
      (if trimIsEmpty requested then none else some requested)).mapError
        TenantIdentityError.message
  | .pricing =>
    (resolveGrpcTenantIdentity headers (some requested)).mapError TenantIdentityError.message
  | .catalog => CatalogService.resolve (CatalogService.fromHeaders headers) (some requested)

/-! ## The chain -/

/-- A service on the way: the context of its own span, and the span it reads from the
headers. -/
structure Hop where
  relay : Relay
  active : Context
  span : SpanContext

/-- What a service on the way did: the tenant it acted for and the context it called on with. -/
structure Acted where
  tenant : Text
  context : Context

/-- The request with these headers, for this tenant, through all services. -/
def callChain (library : Library) (endpoint : Endpoint) :
    List Hop → TenantHeaders → Text → Except String (List Acted × Text)
  | [], headers, requested => do
    let tenant ← endpoint.resolve headers requested
    return ([], tenant)
  | hop :: hops, headers, requested => do
    let tenant ← hop.relay.resolve headers requested
    let context := hop.relay.outbound library hop.active
      (extractContext library hop.span headers) tenant
    let next ← hop.relay.headers context tenant
    let (acted, last) ← callChain library endpoint hops next tenant
    return (⟨tenant, context⟩ :: acted, last)

end CommercePlayground.Propagation
